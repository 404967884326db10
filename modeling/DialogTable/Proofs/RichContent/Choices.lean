import DialogTable.Graph
import DialogTable.Json.Equality
import DialogTable.Proofs.RichContent.Payload

/-!
# The choices of a payload

A payload offers choices in its collections, wherever an object holds one. The search for them goes
into the items of an array that are no choices, and into the members of an object that are no
collections. `mem_collect_iff` says that the choices that are found are those of the places that
are searched. A collection in any other place is passed over: below an item of a collection, below
a choice in an array, and below the key of a collection that holds no array.
-/

namespace DialogTable

/-- A value anywhere inside of another, at any depth. -/
inductive Json.Inside (value : Json) : Json → Prop
  | refl : Inside value value
  | item {items : List Json} {item : Json} :
      Inside value (.array items) → item ∈ items → Inside value item
  | member {members : List (String × Json)} {key : String} {part : Json} :
      Inside value (.object members) → (key, part) ∈ members → Inside value part

namespace Choice

/-! ### Choices and collections -/

/-- What counts as a choice: no collection, and with a label or a key of a destination. -/
structure IsChoice (item : Json) : Prop where
  noCollection : ∀ key ∈ collectionKeys, item.get? key = none
  named : (∃ key ∈ labelKeys, ∃ text, item.get? key = some (.string text)) ∨
    ∃ key ∈ destinationKeys, (item.get? key).isSome

/-- The choice that an item is read as: without a label the empty one counts. -/
def ofItem (item : Json) : Choice :=
  { label := (labelOf item).getD "", destination := destinationOf item }

/-- An object holds an item in one of its collections. -/
def InCollection (object item : Json) : Prop :=
  ∃ key ∈ collectionKeys, ∃ items, object.get? key = some (.array items) ∧ item ∈ items

theorem string?_eq_some_iff {value : Json} {text : String} :
    value.string? = some text ↔ value = .string text := by
  cases value <;> simp [Json.string?]

theorem labelOf_isSome_iff {item : Json} :
    (labelOf item).isSome ↔ ∃ key ∈ labelKeys, ∃ text, item.get? key = some (.string text) := by
  rw [labelOf, List.findSome?_isSome_iff]
  simp [Option.isSome_iff_exists, Option.bind_eq_some_iff, string?_eq_some_iff]

theorem isChoice_iff {item : Json} :
    IsChoice item ↔ hasKey collectionKeys item = false ∧
      ((labelOf item).isSome ∨ hasKey destinationKeys item = true) := by
  have hcollection : hasKey collectionKeys item = false ↔
      ∀ key ∈ collectionKeys, item.get? key = none := by
    simp [hasKey]
  have hdestination : hasKey destinationKeys item = true ↔
      ∃ key ∈ destinationKeys, (item.get? key).isSome := by
    simp [hasKey]
  rw [hcollection, labelOf_isSome_iff, hdestination]
  exact ⟨fun h => ⟨h.noCollection, h.named⟩, fun h => ⟨h.1, h.2⟩⟩

instance (item : Json) : Decidable (IsChoice item) :=
  decidable_of_iff' _ isChoice_iff

theorem ofJson?_eq (item : Json) :
    ofJson? item = if IsChoice item then some (ofItem item) else none := by
  simp only [isChoice_iff, ofJson?, ofItem]
  cases hasKey collectionKeys item with
  | true => simp
  | false =>
    cases labelOf item with
    | some label => simp
    | none => simp

theorem ofJson?_eq_some_iff {item : Json} {choice : Choice} :
    ofJson? item = some choice ↔ IsChoice item ∧ ofItem item = choice := by
  simp [ofJson?_eq]

/-! ### The places that are searched -/

/-- A place of a payload that is searched: the search goes on into the items of an array that are no
choices and into the members of an object that are no collections. -/
inductive Searched (value : Json) : Json → Prop
  | refl : Searched value value
  | item {items : List Json} {item : Json} :
      Searched value (.array items) → item ∈ items → ¬ IsChoice item → Searched value item
  | member {members : List (String × Json)} {key : String} {part : Json} :
      Searched value (.object members) → (key, part) ∈ members → key ∉ collectionKeys →
      Searched value part

theorem Searched.trans {value place inner : Json} (h : Searched value place)
    (hinner : Searched place inner) : Searched value inner := by
  induction hinner with
  | refl => exact h
  | item _ hitem hno ih => exact ih.item hitem hno
  | member _ hpart hkey ih => exact ih.member hpart hkey

/-- A choice that the search finds: in a collection of an object that is searched, or in an array
that is searched. -/
def Seen (value item : Json) : Prop :=
  IsChoice item ∧
    ((∃ object, Searched value object ∧ InCollection object item) ∨
      ∃ items, Searched value (.array items) ∧ item ∈ items)

theorem Seen.of_searched {value place item : Json} (h : Searched value place)
    (hseen : Seen place item) : Seen value item := by
  obtain ⟨hchoice, ⟨object, hobject, hin⟩ | ⟨items, hitems, hin⟩⟩ := hseen
  · exact ⟨hchoice, .inl ⟨object, h.trans hobject, hin⟩⟩
  · exact ⟨hchoice, .inr ⟨items, h.trans hitems, hin⟩⟩

/-! ### One step of the search -/

theorem mem_inCollections_iff {members : List (String × Json)} {choice : Choice} :
    choice ∈ inCollections members ↔
      ∃ item, InCollection (.object members) item ∧ IsChoice item ∧ ofItem item = choice := by
  rw [inCollections, List.mem_flatMap]
  constructor
  · rintro ⟨key, hkey, hchoice⟩
    split at hchoice
    · next items hitems =>
      obtain ⟨item, hitem, hread⟩ := List.mem_filterMap.1 hchoice
      exact ⟨item, ⟨key, hkey, items, hitems, hitem⟩, ofJson?_eq_some_iff.1 hread⟩
    · exact absurd hchoice List.not_mem_nil
  · rintro ⟨item, ⟨key, hkey, items, hitems, hitem⟩, hread⟩
    refine ⟨key, hkey, ?_⟩
    have hitems : members.lookup key = some (.array items) := hitems
    rw [hitems]
    exact List.mem_filterMap.2 ⟨item, hitem, ofJson?_eq_some_iff.2 hread⟩

theorem mem_collectItems_iff {items : List Json} {choice : Choice} :
    choice ∈ collectItems items ↔
      ∃ item ∈ items, (IsChoice item ∧ ofItem item = choice) ∨
        (¬ IsChoice item ∧ choice ∈ collect item) := by
  induction items with
  | nil => simp [collectItems]
  | cons item rest ih =>
    rw [collectItems, List.mem_append, ih, List.exists_mem_cons_iff, ofJson?_eq]
    by_cases h : IsChoice item
    · simp [h, eq_comm]
    · simp [h]

theorem mem_collectMembers_iff {members : List (String × Json)} {choice : Choice} :
    choice ∈ collectMembers members ↔
      ∃ member ∈ members, member.1 ∉ collectionKeys ∧ choice ∈ collect member.2 := by
  induction members with
  | nil => simp [collectMembers]
  | cons member rest ih =>
    obtain ⟨key, part⟩ := member
    rw [collectMembers, List.mem_append, ih, List.exists_mem_cons_iff]
    by_cases h : key ∈ collectionKeys
    · simp [h]
    · simp [h]

/-! ### The whole search -/

/-- What is found in a place that is searched is found in the payload. -/
theorem Searched.mem_collect {value place : Json} (h : Searched value place) {choice : Choice}
    (hchoice : choice ∈ collect place) : choice ∈ collect value := by
  induction h with
  | refl => exact hchoice
  | item _ hitem hno ih =>
    apply ih
    rw [collect, mem_collectItems_iff]
    exact ⟨_, hitem, .inr ⟨hno, hchoice⟩⟩
  | member _ hpart hkey ih =>
    apply ih
    rw [collect, List.mem_append, mem_collectMembers_iff]
    exact .inr ⟨_, hpart, hkey, hchoice⟩

theorem Seen.mem_collect {value item : Json} (h : Seen value item) :
    ofItem item ∈ collect value := by
  obtain ⟨hchoice, ⟨object, hobject, hin⟩ | ⟨items, hitems, hin⟩⟩ := h
  · apply hobject.mem_collect
    cases object with
    | object members =>
      rw [collect, List.mem_append, mem_inCollections_iff]
      exact .inl ⟨item, hin, hchoice, rfl⟩
    | _ =>
      obtain ⟨key, -, items, hitems, -⟩ := hin
      exact absurd hitems (by simp [Json.get?])
  · apply hitems.mem_collect
    rw [collect, mem_collectItems_iff]
    exact ⟨item, hin, .inl ⟨hchoice, rfl⟩⟩

/-- What is found in a part of a payload is seen from that part, and the search went into it. -/
theorem exists_seen_of_mem_collect {choice : Choice} :
    ∀ {value : Json}, choice ∈ collect value → ∃ item, Seen value item ∧ ofItem item = choice
  | .array items, h => by
    rw [collect, mem_collectItems_iff] at h
    obtain ⟨item, hitem, ⟨hchoice, hread⟩ | ⟨hno, hmem⟩⟩ := h
    · exact ⟨item, ⟨hchoice, .inr ⟨items, .refl, hitem⟩⟩, hread⟩
    · obtain ⟨inner, hseen, hread⟩ := exists_seen_of_mem_collect hmem
      exact ⟨inner, hseen.of_searched (.item .refl hitem hno), hread⟩
  | .object members, h => by
    rw [collect, List.mem_append, mem_inCollections_iff, mem_collectMembers_iff] at h
    obtain ⟨item, hin, hchoice, hread⟩ | ⟨⟨key, part⟩, hpart, hkey, hmem⟩ := h
    · exact ⟨item, ⟨hchoice, .inl ⟨_, .refl, hin⟩⟩, hread⟩
    · have hsize : sizeOf part < sizeOf members := by
        have hmember : sizeOf (key, part) < sizeOf members := List.sizeOf_lt_of_mem hpart
        rw [Prod.mk.sizeOf_spec] at hmember
        omega
      obtain ⟨inner, hseen, hread⟩ := exists_seen_of_mem_collect hmem
      exact ⟨inner, hseen.of_searched (.member .refl hpart hkey), hread⟩
  | .null, h => by simp [collect] at h
  | .bool _, h => by simp [collect] at h
  | .number _, h => by simp [collect] at h
  | .string _, h => by simp [collect] at h

/-- The choices of a payload are those that are seen. -/
theorem mem_collect_iff {value : Json} {choice : Choice} :
    choice ∈ collect value ↔ ∃ item, Seen value item ∧ ofItem item = choice := by
  refine ⟨exists_seen_of_mem_collect, ?_⟩
  rintro ⟨item, hseen, rfl⟩
  exact hseen.mem_collect

/-! ### What is offered -/

/-- A choice in a collection of an object anywhere inside of a payload. -/
def Offered (value item : Json) : Prop :=
  IsChoice item ∧ ∃ object, value.Inside object ∧ InCollection object item

/-- A choice that is offered only in places that are not searched. -/
def Hidden (value item : Json) : Prop :=
  Offered value item ∧ ¬ Seen value item

/-- Everything on offer is found if and only if each hidden choice has a twin that is seen. -/
theorem forall_offered_mem_collect_iff {value : Json} :
    (∀ item, Offered value item → ofItem item ∈ collect value) ↔
      ∀ item, Hidden value item → ∃ other, Seen value other ∧ ofItem other = ofItem item := by
  constructor
  · intro h item hhidden
    exact mem_collect_iff.1 (h item hhidden.1)
  · intro h item hoffered
    by_cases hseen : Seen value item
    · exact hseen.mem_collect
    · exact mem_collect_iff.2 (h item ⟨hoffered, hseen⟩)

/-- The choices are those of a payload that are seen. So all that is offered is among them if and
only if each hidden choice has a twin that is seen. -/
structure AreSeen (value : Json) (choices : List Choice) : Prop where
  mem_iff : ∀ choice, choice ∈ choices ↔ ∃ item, Seen value item ∧ ofItem item = choice
  forall_offered_mem_iff : (∀ item, Offered value item → ofItem item ∈ choices) ↔
    ∀ item, Hidden value item → ∃ other, Seen value other ∧ ofItem other = ofItem item

theorem areSeen_collect (value : Json) : AreSeen value (collect value) where
  mem_iff _ := mem_collect_iff
  forall_offered_mem_iff := forall_offered_mem_collect_iff

end Choice

/-! ### Choices of a content and references of a node -/

namespace RichContent

theorem choices_ofValue {kind : ContentKind} (h : kind = .listPicker ∨ kind = .generic)
    (value : Json) : (ofValue kind (some value)).choices = Choice.collect value := by
  rcases h with rfl | rfl
  · rfl
  · rfl

/-- An empty payload is no JSON to the reader of this library. -/
theorem ne_nil_of_decodeWith {text : List Char} {value : Json}
    (h : decodeWith Json.ofText? text = some value) : text ≠ [] := by
  rintro rfl
  exact nomatch h

theorem parse_of_decodeWith {payload : String} {value : Json}
    (h : decodeWith Json.ofText? (Text.trim payload.toList) = some value) (tag : Option String) :
    parse tag (some payload) = some (ofValue (kindOf tag) (some value)) := by
  rw [parse, parseWith_of_not_blank _ _ (ne_nil_of_decodeWith h), h]

theorem mem_destinations_iff {content : RichContent} {label : String} {target : Int} :
    (label, target) ∈ content.destinations ↔
      { label, destination := some target } ∈ content.choices := by
  simp only [destinations, List.mem_filterMap, Option.map_eq_some_iff, Prod.mk.injEq]
  constructor
  · rintro ⟨choice, hchoice, _, hdestination, rfl, rfl⟩
    rw [← hdestination]
    exact hchoice
  · intro h
    exact ⟨_, h, target, rfl, rfl, rfl⟩

end RichContent

theorem Node.choice_mem_references_iff {node : Node} {content : RichContent}
    (h : RichContent.parse node.richContentType node.richContent = some content) {label : String}
    {target : Int} :
    { target, origin := .choice, label := some label } ∈ node.references ↔
      { label, destination := some target } ∈ content.choices := by
  rw [← RichContent.mem_destinations_iff, references, h, List.mem_append, List.mem_append]
  constructor
  · rintro ((hnext | hroute) | hchoice)
    · simp at hnext
    · simp at hroute
    · simpa using hchoice
  · intro hchoice
    exact .inr (List.mem_map.2 ⟨_, hchoice, rfl⟩)

namespace RichContent

/-- By any reader of JSON, the choices of a list or of a generic payload are the choices that are
seen, so that all that is offered is among them if and only if each hidden choice has a twin that is
seen. This holds of the reader of this library, and the references that a node declares by a payload
are its choices with a destination. -/
theorem offered_choices_iff {tag : Option String} {payload : String} {value : Json}
    (hkind : kindOf tag = .listPicker ∨ kindOf tag = .generic) :
    (∀ read : String → Option Json, Text.trim payload.toList ≠ [] →
      decodeWith read (Text.trim payload.toList) = some value →
      ∃ content, parseWith read tag (some payload) = some content ∧
        Choice.AreSeen value content.choices) ∧
    (decodeWith Json.ofText? (Text.trim payload.toList) = some value →
      ∃ content, parse tag (some payload) = some content ∧
        Choice.AreSeen value content.choices ∧
        ∀ node : Node, node.richContentType = tag → node.richContent = some payload →
          ∀ label target, { target, origin := .choice, label := some label } ∈ node.references ↔
            ∃ item, Choice.Seen value item ∧
              Choice.ofItem item = { label, destination := some target }) := by
  have hseen : Choice.AreSeen value (ofValue (kindOf tag) (some value)).choices := by
    rw [choices_ofValue hkind]
    exact Choice.areSeen_collect value
  constructor
  · intro read hne hvalue
    refine ⟨_, ?_, hseen⟩
    rw [parseWith_of_not_blank read tag hne, hvalue]
  · intro hvalue
    have hparse := parse_of_decodeWith hvalue tag
    refine ⟨_, hparse, hseen, ?_⟩
    rintro node rfl hpayload label target
    rw [← hpayload] at hparse
    rw [Node.choice_mem_references_iff hparse, hseen.mem_iff]

/-- The choice of both payloads below. -/
def goItem : Json :=
  .object [("dest", .ofInt 7), ("label", .string "Go")]

/-- A payload whose options are two levels below its root. -/
def menuPayload : String :=
  "\x7b\"menu\":[\x7b\"options\":[\x7b\"label\":\"Go\",\"dest\":7\x7d]\x7d]\x7d"

/-- The value of `menuPayload`. -/
def menuValue : Json :=
  .object [("menu", .array [.object [("options", .array [goItem])]])]

theorem offered_choices_of_menu :
    decodeWith Json.ofText? (Text.trim menuPayload.toList) = some menuValue ∧
      kindOf none = .generic ∧
      (∃ content, parseWith Json.ofText? none (some menuPayload) = some content ∧
        Choice.AreSeen menuValue content.choices) ∧
      ∃ content, parse none (some menuPayload) = some content ∧
        content.choices = [{ label := "Go", destination := some 7 }] ∧
        ∃ item, Choice.Seen menuValue item ∧
          Choice.ofItem item = { label := "Go", destination := some 7 } := by
  have hvalue : decodeWith Json.ofText? (Text.trim menuPayload.toList) = some menuValue := by
    decide +kernel
  have hkind : kindOf none = .generic := rfl
  obtain ⟨hwith, hown⟩ := @offered_choices_iff none menuPayload menuValue (.inr hkind)
  obtain ⟨content, hparse, hseen, -⟩ := hown hvalue
  have hchoices : content.choices = [{ label := "Go", destination := some 7 }] := by
    have hmap : (parse none (some menuPayload)).map choices =
        some [{ label := "Go", destination := some 7 }] := by
      decide +kernel
    rw [hparse] at hmap
    exact Option.some.inj hmap
  refine ⟨hvalue, hkind, hwith Json.ofText? (ne_nil_of_decodeWith hvalue) hvalue, content, hparse,
    hchoices, (hseen.mem_iff _).1 ?_⟩
  rw [hchoices]
  exact List.mem_singleton_self _

/-- A list whose only option holds a list of its own. -/
def nestedPayload : String :=
  "\x7b\"options\":[\x7b\"title\":\"More\"," ++
    "\"options\":[\x7b\"label\":\"Go\",\"dest\":7\x7d]\x7d]\x7d"

/-- The entry of `nestedPayload` with options of its own. -/
def nestedEntry : Json :=
  .object [("options", .array [goItem]), ("title", .string "More")]

/-- The options of an option are passed over. -/
theorem choice_lost_of_nested_options :
    ∃ value content, decodeWith Json.ofText? (Text.trim nestedPayload.toList) = some value ∧
      kindOf (some "listpicker") = .listPicker ∧ Choice.Offered value goItem ∧
      parse (some "listpicker") (some nestedPayload) = some content ∧
      Choice.ofItem goItem = { label := "Go", destination := some 7 } ∧
      Choice.ofItem goItem ∉ content.choices := by
  have hvalue : decodeWith Json.ofText? (Text.trim nestedPayload.toList) =
      some (.object [("options", .array [nestedEntry])]) := by
    decide +kernel
  have hkind : kindOf (some "listpicker") = .listPicker := by decide +kernel
  have hentry : Json.Inside (.object [("options", .array [nestedEntry])]) nestedEntry :=
    .item (.member .refl List.mem_cons_self) List.mem_cons_self
  have hin : Choice.InCollection nestedEntry goItem :=
    ⟨"options", by decide, [goItem], by decide +kernel, List.mem_cons_self⟩
  refine ⟨_, _, hvalue, hkind, ⟨by decide +kernel, nestedEntry, hentry, hin⟩,
    parse_of_decodeWith hvalue _, by decide +kernel, ?_⟩
  rw [choices_ofValue (.inl hkind)]
  decide +kernel

end RichContent

end DialogTable
