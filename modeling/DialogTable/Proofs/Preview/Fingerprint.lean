import DialogTable.Preview.Fingerprint
import DialogTable.Proofs.Json.Printed

/-!
# Fingerprints tell previews apart

The number in front of a text has a fixed width and says where the text ends, so that the three
texts can be cut out of the digested bytes again, whatever they look like themselves
(`keyBytes_inj`). The digits of a fingerprint show all of the digest (`toHex_inj`). So two
fingerprints are the same exactly if the texts are, or if the digest collides on their bytes
(`Fingerprint.of_eq_of_iff`). This holds of any digest.
-/

namespace DialogTable

/-! ### Digits of a digest -/

theorem Text.hexDigit_inj {m n : Nat} : Text.hexDigit m = Text.hexDigit n ↔ m % 16 = n % 16 := by
  constructor
  · intro h
    have hvalue := congrArg Text.hexValue h
    rwa [Json.hexValue_hexDigit, Json.hexValue_hexDigit, Option.some_inj] at hvalue
  · intro h
    rw [Text.hexDigit, Text.hexDigit, h]

theorem Text.hexDigits_inj {width m n : Nat} (hm : m < 16 ^ width) (hn : n < 16 ^ width) :
    Text.hexDigits width m Text.hexDigit = Text.hexDigits width n Text.hexDigit ↔ m = n := by
  refine ⟨fun h => ?_, fun h => by rw [h]⟩
  induction width generalizing m n with
  | zero =>
    rw [pow_zero] at hm hn
    omega
  | succ width ih =>
    rw [pow_succ] at hm hn
    obtain ⟨hfront, hlast⟩ := List.append_inj' h rfl
    have hmore : m / 16 = n / 16 := ih (by omega) (by omega) hfront
    have hdigit := Text.hexDigit_inj.1 (List.singleton_inj.1 hlast)
    omega

namespace Digest

/-- Two messages that a digest does not tell apart. -/
def Collide (digest : List UInt8 → List UInt8) (a b : List UInt8) : Prop :=
  a ≠ b ∧ digest a = digest b

theorem toHex_inj {a b : List UInt8} : toHex a = toHex b ↔ a = b := by
  refine ⟨fun h => ?_, fun h => by rw [h]⟩
  have hdigits := String.ofList_injective h
  clear h
  induction a generalizing b with
  | nil =>
    cases b with
    | nil => rfl
    | cons y b => cases hdigits
  | cons x a ih =>
    cases b with
    | nil => cases hdigits
    | cons y b =>
      rw [List.flatMap_cons, List.flatMap_cons] at hdigits
      obtain ⟨hfirst, hrest⟩ := List.append_inj hdigits
        ((Text.length_hexDigits ..).trans (Text.length_hexDigits ..).symm)
      have hbyte := (Text.hexDigits_inj x.toNat_lt y.toNat_lt).1 hfirst
      rw [UInt8.toNat_inj.1 hbyte, ih hrest]

end Digest

namespace Preview

/-! ### Texts behind their lengths -/

theorem length_littleEndian (width n : Nat) : (littleEndian width n).length = width := by
  induction width generalizing n with
  | zero => rfl
  | succ width ih => rw [littleEndian, List.length_cons, ih]

theorem littleEndian_inj {width m n : Nat} (hm : m < 256 ^ width) (hn : n < 256 ^ width) :
    littleEndian width m = littleEndian width n ↔ m = n := by
  refine ⟨fun h => ?_, fun h => by rw [h]⟩
  induction width generalizing m n with
  | zero =>
    rw [pow_zero] at hm hn
    omega
  | succ width ih =>
    rw [pow_succ] at hm hn
    obtain ⟨hfirst, hrest⟩ := List.cons.inj h
    have hmore : m / 256 = n / 256 := ih (by omega) (by omega) hrest
    have hbyte : m % 256 = n % 256 := by
      have hnat := congrArg UInt8.toNat hfirst
      rwa [UInt8.toNat_ofNat', UInt8.toNat_ofNat'] at hnat
    omega

/-- The bytes of a text are counted in 64 bits. -/
def Counted (text : String) : Prop :=
  text.utf8ByteSize < Text.countLimit

instance (text : String) : Decidable (Counted text) :=
  inferInstanceAs (Decidable (_ < _))

/-- A text behind its length is cut off from whatever follows. -/
theorem framed_append_inj {a b : String} (ha : Counted a) (hb : Counted b)
    {rest more : List UInt8} : framed a ++ rest = framed b ++ more ↔ a = b ∧ rest = more := by
  refine ⟨fun h => ?_, fun h => by rw [h.1, h.2]⟩
  rw [framed, framed, List.append_assoc, List.append_assoc] at h
  obtain ⟨hcount, htail⟩ := List.append_inj h
    ((length_littleEndian ..).trans (length_littleEndian ..).symm)
  have hlength : a.toUTF8.data.toList.length = b.toUTF8.data.toList.length :=
    (littleEndian_inj ha hb).1 hcount
  obtain ⟨hbytes, hrest⟩ := List.append_inj htail hlength
  have hdata : a.toUTF8.data = b.toUTF8.data := Array.toList_inj.1 hbytes
  exact ⟨String.toByteArray_inj.1 (ByteArray.ext hdata), hrest⟩

section Keys

variable {name description context otherName otherDescription otherContext : String}

theorem keyBytes_inj (h : ∀ text ∈ [name, description, context], Counted text)
    (hother : ∀ text ∈ [otherName, otherDescription, otherContext], Counted text) :
    keyBytes name description context = keyBytes otherName otherDescription otherContext ↔
      (name, description, context) = (otherName, otherDescription, otherContext) := by
  obtain ⟨hname, h⟩ := List.forall_mem_cons.1 h
  obtain ⟨hdescription, h⟩ := List.forall_mem_cons.1 h
  obtain ⟨hname', hother⟩ := List.forall_mem_cons.1 hother
  obtain ⟨hdescription', hother⟩ := List.forall_mem_cons.1 hother
  have hlast : framed context ++ [] = framed otherContext ++ [] ↔
      context = otherContext ∧ ([] : List UInt8) = [] :=
    framed_append_inj (List.forall_mem_singleton.1 h) (List.forall_mem_singleton.1 hother)
  rw [List.append_nil, List.append_nil] at hlast
  rw [keyBytes, keyBytes, List.append_assoc, List.append_assoc, framed_append_inj hname hname',
    framed_append_inj hdescription hdescription', hlast, Prod.mk.injEq, Prod.mk.injEq]
  simp only [and_true]

/-- By any digest: what is digested differs, or the digest is the same. -/
theorem Fingerprint.ofWith_eq_ofWith_iff (digest : List UInt8 → List UInt8) :
    let bytes := keyBytes name description context
    let otherBytes := keyBytes otherName otherDescription otherContext
    ofWith digest name description context =
        ofWith digest otherName otherDescription otherContext ↔
      bytes = otherBytes ∨ Digest.Collide digest bytes otherBytes := by
  intro bytes otherBytes
  rw [ofWith, ofWith, Fingerprint.mk.injEq, Digest.toHex_inj, Digest.Collide]
  constructor
  · intro hdigest
    by_cases heq : bytes = otherBytes
    · exact .inl heq
    · exact .inr ⟨heq, hdigest⟩
  · rintro (heq | ⟨-, hdigest⟩)
    · exact congrArg digest heq
    · exact hdigest

end Keys

/-- **Fingerprints tell previews apart.** The bytes that are digested are the same for no two
triples of texts. By any digest, two fingerprints are the same exactly if the texts are, or if the
digest does not tell their bytes apart; so it is by the digest of this library. -/
theorem Fingerprint.of_eq_of_iff (name description context otherName otherDescription
    otherContext : String) (h : ∀ text ∈ [name, description, context], Counted text)
    (hother : ∀ text ∈ [otherName, otherDescription, otherContext], Counted text) :
    let bytes := keyBytes name description context
    let otherBytes := keyBytes otherName otherDescription otherContext
    let same := (name, description, context) = (otherName, otherDescription, otherContext)
    (bytes = otherBytes ↔ same) ∧
      (∀ digest : List UInt8 → List UInt8,
        Fingerprint.ofWith digest name description context =
            Fingerprint.ofWith digest otherName otherDescription otherContext ↔
          same ∨ Digest.Collide digest bytes otherBytes) ∧
      (Fingerprint.of name description context =
          Fingerprint.of otherName otherDescription otherContext ↔
        same ∨ Digest.Collide Digest.sha256 bytes otherBytes) := by
  intro bytes otherBytes same
  have hbytes : bytes = otherBytes ↔ same := keyBytes_inj h hother
  have hdigest : ∀ digest, Fingerprint.ofWith digest name description context =
      Fingerprint.ofWith digest otherName otherDescription otherContext ↔
        same ∨ Digest.Collide digest bytes otherBytes := fun digest => by
    rw [← hbytes]
    exact Fingerprint.ofWith_eq_ofWith_iff digest
  exact ⟨hbytes, hdigest, hdigest Digest.sha256⟩

/-- A name that goes on like the length of an empty description. -/
theorem Fingerprint.of_eq_of_lookalike :
    let lookalike := "a\x00\x00\x00\x00\x00\x00\x00\x00"
    let bytes := keyBytes "a" "" ""
    let otherBytes := keyBytes lookalike "" ""
    (∀ text ∈ ["a", "", ""], Counted text) ∧ (∀ text ∈ [lookalike, "", ""], Counted text) ∧
      bytes ≠ otherBytes ∧
      (Fingerprint.of "a" "" "" = Fingerprint.of lookalike "" "" ↔
        Digest.Collide Digest.sha256 bytes otherBytes) := by
  intro lookalike bytes otherBytes
  have h : ∀ text ∈ ["a", "", ""], Counted text := by decide
  have hother : ∀ text ∈ [lookalike, "", ""], Counted text := by decide
  have hdiffer : ("a", "", "") ≠ (lookalike, "", "") := by decide
  obtain ⟨hbytes, -, hdigest⟩ := of_eq_of_iff "a" "" "" lookalike "" "" h hother
  exact ⟨h, hother, fun heq => hdiffer (hbytes.1 heq),
    hdigest.trans (or_iff_right hdiffer)⟩

end Preview

end DialogTable
