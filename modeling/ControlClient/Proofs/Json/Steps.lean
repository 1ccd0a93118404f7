import ControlClient.Json.Reader

/-!
# The reader, byte by byte

A document is read by a machine that holds two others while it needs them, one for a string and one for
a number. A run of any of them is a chain of steps, one for each byte. `Leads` is that chain, given what
one step does, so that a chain of the inner machine becomes one of the outer machine by changing its
states (`Leads.lift`).

## Main results

* `Leads.append`: chains follow one another.
* `State.run_of_leads`: a chain of the outer machine is the front of its run.
* `read_eq_ok_iff`: a document is read if the run from the start ends with it.
-/

namespace ControlClient.Json

/-! ## Chains of steps -/

section Leads

variable {σ τ : Type} {goes : σ → Nat → UInt8 → σ → Prop}

/-- Bytes lead from a state to another, the first of them after so many others. -/
inductive Leads (goes : σ → Nat → UInt8 → σ → Prop) : σ → Nat → List UInt8 → σ → Prop where
  | done {s : σ} {taken : Nat} : Leads goes s taken [] s
  | next {s t u : σ} {taken : Nat} {byte : UInt8} {rest : List UInt8}
      (hStep : goes s taken byte t) (hRest : Leads goes t (taken + 1) rest u) :
      Leads goes s taken (byte :: rest) u

theorem Leads.append {s t u : σ} {taken : Nat} {bytes more : List UInt8}
    (h : Leads goes s taken bytes t) (hMore : Leads goes t (taken + bytes.length) more u) :
    Leads goes s taken (bytes ++ more) u := by
  induction h with
  | done => exact hMore
  | next hStep _ ih =>
      apply Leads.next hStep
      apply ih
      rwa [Nat.add_assoc, Nat.add_comm 1]

theorem Leads.lift {goesThere : τ → Nat → UInt8 → τ → Prop} (f : σ → τ)
    (hStep : ∀ {s taken byte t}, goes s taken byte t → goesThere (f s) taken byte (f t))
    {s t : σ} {taken : Nat} {bytes : List UInt8} (h : Leads goes s taken bytes t) :
    Leads goesThere (f s) taken bytes (f t) := by
  induction h with
  | done => exact .done
  | next hGoes _ ih => exact .next (hStep hGoes) ih

end Leads

/-! ## The three machines -/

/-- One byte inside a string. -/
abbrev StringState.Goes (s : StringState) (taken : Nat) (byte : UInt8) (t : StringState) : Prop :=
  s.step taken byte = .goes t

/-- One byte inside a number, wherever it stands. -/
abbrev NumberState.Goes (s : NumberState) (_taken : Nat) (byte : UInt8) (t : NumberState) : Prop :=
  s.step byte = .goes t

namespace State

/-- One byte of a document. -/
abbrev Goes (s : State) (taken : Nat) (byte : UInt8) (t : State) : Prop := s.step taken byte = .ok t

theorem run_of_leads {s t : State} {taken : Nat} {bytes : List UInt8}
    (h : Leads Goes s taken bytes t) (rest : List UInt8) :
    s.run taken (bytes ++ rest) = t.run (taken + bytes.length) rest := by
  induction h with
  | done => rfl
  | next hStep _ ih =>
      rw [List.cons_append, run, hStep]
      dsimp only
      rw [ih, List.length_cons, Nat.add_assoc, Nat.add_comm 1]

variable {taken : Nat} {bytes : List UInt8}

theorem leads_string {s t : StringState} (frames : List Frame)
    (h : Leads StringState.Goes s taken bytes t) :
    Leads Goes ⟨.string s, frames⟩ taken bytes ⟨.string t, frames⟩ := by
  apply Leads.lift (fun s : StringState => (⟨.string s, frames⟩ : State)) _ h
  intro s taken byte t hStep
  show step _ _ _ = _
  simp only [step]
  rw [hStep]

theorem leads_key {s t : StringState} (frames : List Frame) (members : Members)
    (h : Leads StringState.Goes s taken bytes t) :
    Leads Goes ⟨.key members s, frames⟩ taken bytes ⟨.key members t, frames⟩ := by
  apply Leads.lift (fun s : StringState => (⟨.key members s, frames⟩ : State)) _ h
  intro s taken byte t hStep
  show step _ _ _ = _
  simp only [step]
  rw [hStep]

theorem leads_number {s t : NumberState} (frames : List Frame)
    (h : Leads NumberState.Goes s taken bytes t) :
    Leads Goes ⟨.number s, frames⟩ taken bytes ⟨.number t, frames⟩ := by
  apply Leads.lift (fun s : NumberState => (⟨.number s, frames⟩ : State)) _ h
  intro s taken byte t hStep
  show step _ _ _ = _
  simp only [step]
  rw [hStep]

end State

theorem read_eq_ok_iff {bytes : List UInt8} {v : Value} :
    read bytes = .ok v ↔ State.start.run 0 bytes = .ok v := by
  unfold read
  cases State.start.run 0 bytes <;> simp

end ControlClient.Json
