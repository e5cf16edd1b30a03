import InvertedIndex.Proofs.DiskChanges

/-!
A name stands for the handle that was opened under it until a step drops the name or opens something
under it.
-/

set_option autoImplicit false
set_option relaxedAutoImplicit false

namespace InvertedIndex

def Step.Rebinds (name : HandleName) : Step → Prop
  | .drop other => other = name
  | .opening other _ => other = name
  | _ => False

instance Step.decidableRebinds (name : HandleName) : (step : Step) → Decidable (step.Rebinds name)
  | .drop other => inferInstanceAs (Decidable (other = name))
  | .opening other _ => inferInstanceAs (Decidable (other = name))
  | .change _ => isFalse id
  | .ask _ _ => isFalse id

def Reply.ofAnswer : Option (Logged Answer) → Reply
  | none => .noHandle
  | some answer => .outcome answer

namespace Session

variable {session : Session} {name : HandleName} {handle : Handle}

private theorem lookup_without {other : HandleName} (differ : other ≠ name) :
    (session.without other).lookup name = session.handles.lookup name := by
  unfold without
  induction session.handles with
  | nil => rfl
  | cons entry rest ih =>
    obtain ⟨key, held⟩ := entry
    by_cases gone : key = other
    · -- The entry is gone on the left and passed over on the right.
      subst gone
      have skipped : (name == key) = false := beq_false_of_ne differ.symm
      simp only [List.filter_cons, ne_eq, not_true_eq_false, decide_false, Bool.false_eq_true,
        if_false, List.lookup_cons, skipped, ih]
    · simp only [List.filter_cons, ne_eq, gone, not_false_eq_true, decide_true, if_true,
        List.lookup_cons, ih]

private theorem lookup_without_self : (session.without name).lookup name = none := by
  rw [List.lookup_eq_none_iff]
  intro entry mem
  have kept := (List.mem_filter.mp mem).2
  simp only [ne_eq, decide_eq_true_eq] at kept
  exact bne_iff_ne.mpr (Ne.symm kept)

theorem lookup_step {next : Step} (kept : ¬next.Rebinds name) :
    (session.step next).1.handles.lookup name = session.handles.lookup name := by
  cases next with
  | change change =>
    simp only [Session.step]
    split <;> rfl
  | drop other => exact lookup_without kept
  | opening other opening =>
    have others : (session.without other).lookup name = session.handles.lookup name :=
      lookup_without kept
    have first : (name == other) = false := beq_false_of_ne (Ne.symm kept)
    simp only [Session.step]
    split
    · exact others
    · split
      · simp only [List.lookup_cons, first]
        exact others
      · exact others
  | ask other question =>
    simp only [Session.step]
    split <;> rfl

theorem lookup_run {steps : List Step} (kept : ∀ step ∈ steps, ¬step.Rebinds name) :
    (session.run steps).1.handles.lookup name = session.handles.lookup name := by
  induction steps generalizing session with
  | nil => rfl
  | cons next rest ih =>
    obtain ⟨first, others⟩ := List.forall_mem_cons.mp kept
    exact (ih others).trans (lookup_step first)

theorem reply_opening (session : Session) (name : HandleName) (opening : Opening) :
    (session.step (.opening name opening)).2 =
      Reply.ofAnswer ((opening.perform session.disk session.handles).map (Answer.opened <$> ·)) := by
  simp only [Session.step]
  cases opening.perform session.disk session.handles with
  | none => rfl
  | some outcome =>
    rw [Option.map_some, Logged.map_eq]
    obtain ⟨events, result⟩ := outcome
    cases result <;> rfl

theorem lookup_opening (session : Session) (name : HandleName) (opening : Opening) :
    (session.step (.opening name opening)).1.handles.lookup name =
      (opening.perform session.disk session.handles).bind fun outcome => outcome.result.toOption := by
  simp only [Session.step]
  cases opening.perform session.disk session.handles with
  | none => exact lookup_without_self
  | some outcome =>
    obtain ⟨events, result⟩ := outcome
    cases result with
    | error fault => exact lookup_without_self
    | ok handle => exact List.lookup_cons_self

theorem opened_iff {opening : Opening} {events : List Event} :
    (session.step (.opening name opening)).2 = .outcome ⟨events, .ok (.opened handle)⟩ ↔
      opening.perform session.disk session.handles = some ⟨events, .ok handle⟩ := by
  rw [reply_opening]
  cases opening.perform session.disk session.handles with
  | none => simp [Reply.ofAnswer]
  | some outcome =>
    obtain ⟨before, result⟩ := outcome
    rw [Option.map_some, Logged.map_eq]
    cases result with
    | error fault => simp [Reply.ofAnswer, Except.map]
    | ok held => simp [Reply.ofAnswer, Except.map]

end Session

end InvertedIndex
