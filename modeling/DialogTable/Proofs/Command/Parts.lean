import DialogTable.Command.Memory

/-!
# What parts of commands ensure

A part of a command run in memory comes to a value or to an exit, and leaves a memory behind.
`Ensures` says what holds of them, from one memory on, and `Ensures.bind` follows a command part by
part. A part is quiet if it uses neither the network nor the input: it may read and write files,
print, and exit.
-/

namespace DialogTable.Command

variable {τ α β : Type} {part : Part (StateM (Memory τ)) α} {memory : Memory τ}
  {returns : α → Memory τ → Prop} {exits : Memory τ → Prop}

/-- From a memory a part comes to a value or an exit, and to a memory, as said. -/
def Ensures (part : Part (StateM (Memory τ)) α) (memory : Memory τ)
    (returns : α → Memory τ → Prop) (exits : Memory τ → Prop) : Prop :=
  match part.run.run memory with
  | (.ok value, after) => returns value after
  | (.error _, after) => exits after

theorem ensures_pure {value : α} (h : returns value memory) :
    Ensures (pure value) memory returns exits := h

theorem ensures_lift {action : StateM (Memory τ) α}
    (h : returns (action.run memory).1 (action.run memory).2) :
    Ensures (liftM action) memory returns exits := h

theorem ensures_always {told : Memory τ → Prop} :
    Ensures part memory (fun _ => told) told ↔ told (part.run.run memory).2 := by
  rw [Ensures]
  generalize part.run.run memory = result
  obtain ⟨_ | _, after⟩ := result <;> exact Iff.rfl

theorem Ensures.mono {returns' : α → Memory τ → Prop} {exits' : Memory τ → Prop}
    (h : Ensures part memory returns exits)
    (hreturns : ∀ value after, returns value after → returns' value after)
    (hexits : ∀ after, exits after → exits' after) : Ensures part memory returns' exits' := by
  rw [Ensures] at h ⊢
  generalize part.run.run memory = result at h ⊢
  obtain ⟨exit | value, after⟩ := result
  · exact hexits after h
  · exact hreturns value after h

theorem Ensures.bind {next : α → Part (StateM (Memory τ)) β} {ends : β → Memory τ → Prop}
    (h : Ensures part memory returns exits)
    (hnext : ∀ value after, returns value after → Ensures (next value) after ends exits) :
    Ensures (part >>= next) memory ends exits := by
  have hbind : (part >>= next).run.run memory =
      match part.run.run memory with
      | (.ok value, after) => (next value).run.run after
      | (.error exit, after) => (.error exit, after) := by
    simp only [ExceptT.run_bind, StateT.run_bind]
    generalize part.run.run memory = result
    obtain ⟨value | exit, after⟩ := result <;> rfl
  rw [Ensures] at h ⊢
  rw [hbind]
  generalize part.run.run memory = result at h ⊢
  obtain ⟨exit | value, after⟩ := result
  · exact h
  · exact hnext value after h

/-! ### Quiet parts -/

/-- The network and the input are as before. -/
structure Untouched (before after : Memory τ) : Prop where
  network : after.network = before.network
  input : after.input = before.input

theorem Untouched.trans {first second third : Memory τ} (h : Untouched first second)
    (h' : Untouched second third) : Untouched first third :=
  ⟨h'.network.trans h.network, h'.input.trans h.input⟩

/-- A part that uses neither the network nor the input. -/
def Quiet (part : Part (StateM (Memory τ)) α) : Prop :=
  ∀ memory, Ensures part memory (fun _ => Untouched memory) (Untouched memory)

theorem quiet_pure (value : α) : Quiet (pure value : Part (StateM (Memory τ)) α) :=
  fun _ => ⟨rfl, rfl⟩

theorem quiet_lift {action : StateM (Memory τ) α}
    (h : ∀ memory, Untouched memory (action.run memory).2) :
    Quiet (liftM action : Part (StateM (Memory τ)) α) := fun memory =>
  ensures_lift (h memory)

theorem quiet_throw (exit : Exit) : Quiet (throw exit : Part (StateM (Memory τ)) α) :=
  fun _ => ⟨rfl, rfl⟩

/-- After a quiet part a command goes on, or exits, where it was. -/
theorem Quiet.then {next : α → Part (StateM (Memory τ)) β} {ends : β → Memory τ → Prop}
    (h : Quiet part) (hexits : ∀ after, Untouched memory after → exits after)
    (hnext : ∀ value after, Untouched memory after → Ensures (next value) after ends exits) :
    Ensures (part >>= next) memory ends exits :=
  ((h memory).mono (fun _ _ => id) hexits).bind hnext

theorem Quiet.bind {next : α → Part (StateM (Memory τ)) β} (h : Quiet part)
    (hnext : ∀ value, Quiet (next value)) : Quiet (part >>= next) := fun _ =>
  h.then (fun _ => id) fun value after hafter =>
    (hnext value after).mono (fun _ _ => hafter.trans) fun _ => hafter.trans

theorem Quiet.mapM {action : β → Part (StateM (Memory τ)) α} (h : ∀ item, Quiet (action item))
    (items : List β) : Quiet (items.mapM action) := by
  induction items with
  | nil => exact quiet_pure []
  | cons item items ih =>
    rw [List.mapM_cons]
    exact (h item).bind fun _ => ih.bind fun _ => quiet_pure _

end DialogTable.Command
