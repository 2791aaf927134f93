import DeltaPack.Json.Value

/-!
# Runs of a reader

What a reader makes of a well-formed document is put together here from runs that do not fail.
`Runs` says of one input what is read and what is left. `Takes` says it of all inputs of one form,
and of the form of what is left; forms of inputs are predicates, and two readers run one after the
other if the first leaves the form that the second takes (`Takes.bind`).

The places of faults play no part in such a run, so `placed`, `andAlways` and `lift` hand on what
they are given.
-/

namespace DeltaPack.Json.Reader

variable {α β : Type} {r : Reader α} {f : α → Reader β} {a : α} {b : β}

/-! ### One input -/

/-- A reader **runs** from some bytes to others, with a value. -/
def Runs (r : Reader α) (input : List UInt8) (a : α) (rest : List UInt8) : Prop :=
  r input = .ok a rest

namespace Runs

variable {input middle rest : List UInt8}

theorem pure (a : α) (input : List UInt8) : Runs (Pure.pure a) input a input := rfl

theorem bind (h : Runs r input a middle) (hf : Runs (f a) middle b rest) :
    Runs (r >>= f) input b rest := by
  change EStateM.bind r f input = .ok b rest
  rw [EStateM.bind, h]
  exact hf

theorem placed (h : Runs r input a rest) : Runs (placed r) input a rest := by
  rw [Runs, Reader.placed, h]

theorem andAlways {finish : Reader Unit} (h : Runs r input a middle)
    (hfinish : Runs finish middle () rest) : Runs (andAlways r finish) input a rest := by
  rw [Runs, Reader.andAlways, h]
  simp only
  rw [hfinish]

theorem lift {value : Except Cause α} (h : value = .ok a) (input : List UInt8) :
    Runs (lift value) input a input := by
  rw [h]
  rfl

/-- A document whose value is followed by blanks only is read whole. -/
theorem readAll {document : List UInt8} (h : Runs r document a rest)
    (hend : Runs endDocument rest () []) : readAll r document = .ok a := by
  have hwhole : Runs (Reader.placed do let a ← r; endDocument; return a) document a [] :=
    (h.bind (hend.bind (pure a []))).placed
  rw [Reader.readAll, hwhole]

end Runs

/-! ### All inputs of one form -/

/-- A reader **takes** the inputs of one form, with the same value for all of them, and leaves
bytes of another. -/
def Takes (r : Reader α) (before : List UInt8 → Prop) (a : α) (after : List UInt8 → Prop) : Prop :=
  ∀ input, before input → ∃ rest, Runs r input a rest ∧ after rest

namespace Takes

variable {before middle after : List UInt8 → Prop}

theorem pure (a : α) (before : List UInt8 → Prop) : Takes (Pure.pure a) before a before :=
  fun input h => ⟨input, .pure a input, h⟩

theorem bind (h : Takes r before a middle) (hf : Takes (f a) middle b after) :
    Takes (r >>= f) before b after := by
  intro input hinput
  obtain ⟨rest, hrun, hrest⟩ := h input hinput
  obtain ⟨last, hnext, hlast⟩ := hf rest hrest
  exact ⟨last, hrun.bind hnext, hlast⟩

/-- A narrower form is taken too. -/
theorem of_imp (h : Takes r middle a after) (himp : ∀ input, before input → middle input) :
    Takes r before a after := fun input hinput => h input (himp input hinput)

theorem placed (h : Takes r before a after) : Takes (placed r) before a after := by
  intro input hinput
  obtain ⟨rest, hrun, hrest⟩ := h input hinput
  exact ⟨rest, hrun.placed, hrest⟩

theorem andAlways {finish : Reader Unit} (h : Takes r before a middle)
    (hfinish : Takes finish middle () after) : Takes (andAlways r finish) before a after := by
  intro input hinput
  obtain ⟨rest, hrun, hrest⟩ := h input hinput
  obtain ⟨last, hnext, hlast⟩ := hfinish rest hrest
  exact ⟨last, hrun.andAlways hnext, hlast⟩

theorem lift {value : Except Cause α} (h : value = .ok a) (before : List UInt8 → Prop) :
    Takes (lift value) before a before := fun input hinput => ⟨input, .lift h input, hinput⟩

end Takes

end DeltaPack.Json.Reader
