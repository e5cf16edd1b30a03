import Mathlib
import InvertedIndex.Logged

set_option autoImplicit false
set_option relaxedAutoImplicit false

namespace InvertedIndex

variable {α β γ δ : Type}

namespace Outcome

theorem bind_eq_ok {ε : Type} {x : Except ε α} {f : α → Except ε β} {b : β} :
    x >>= f = .ok b ↔ ∃ a, x = .ok a ∧ f a = .ok b := by
  cases x with
  | error fault => simp [bind, Except.bind]
  | ok a => simp [bind, Except.bind]

theorem bind_of_ok {x : Except Fault α} {a : α} (h : x = .ok a) (f : α → Except Fault β) :
    x >>= f = f a := by
  rw [h]
  rfl

theorem bind_eq_error {x : Except Fault α} {f : α → Except Fault β} {fault : Fault} :
    x >>= f = .error fault ↔ x = .error fault ∨ ∃ a, x = .ok a ∧ f a = .error fault := by
  cases x with
  | error fault => simp [bind, Except.bind]
  | ok a => simp [bind, Except.bind]

theorem error_or_ok (x : Except Fault α) : (∃ fault, x = .error fault) ∨ ∃ a, x = .ok a := by
  cases x with
  | error fault => exact Or.inl ⟨fault, rfl⟩
  | ok a => exact Or.inr ⟨a, rfl⟩

theorem mapM_eq_ok {f : α → Except Fault β} {as : List α} {bs : List β} :
    as.mapM f = .ok bs ↔ List.Forall₂ (fun a b => f a = .ok b) as bs := by
  induction as generalizing bs with
  | nil => simp [pure, Except.pure, eq_comm]
  | cons a as ih =>
    simp only [List.mapM_cons, bind_eq_ok, pure, Except.pure, Except.ok.injEq, ih]
    constructor
    · rintro ⟨b, hb, bs, hbs, rfl⟩
      exact .cons hb hbs
    · intro h
      cases h with
      | cons hb hbs => exact ⟨_, hb, _, hbs, rfl⟩

theorem exists_of_mem_right {R : α → β → Prop} {as : List α} {bs : List β}
    (inputs : List.Forall₂ R as bs) {b : β} (mem : b ∈ bs) : ∃ a ∈ as, R a b := by
  induction inputs with
  | nil => simp at mem
  | cons hab _ ih =>
    rcases List.mem_cons.mp mem with rfl | mem
    · exact ⟨_, List.mem_cons_self .., hab⟩
    · obtain ⟨a, ha, hfa⟩ := ih mem
      exact ⟨a, List.mem_cons_of_mem _ ha, hfa⟩

theorem forall₂_of_common {R : α → β → Prop} {S : α → γ → Prop} {T : β → γ → Prop} {as : List α}
    {bs : List β} {cs : List γ} (first : List.Forall₂ R as bs) (second : List.Forall₂ S as cs)
    (each : ∀ a b c, R a b → S a c → T b c) : List.Forall₂ T bs cs := by
  induction first generalizing cs with
  | nil =>
    cases second
    exact .nil
  | cons hab _ ih =>
    cases second with
    | cons hac rest => exact .cons (each _ _ _ hab hac) (ih rest)

theorem exists_of_mem_mapM {f : α → Except Fault β} {as : List α} {bs : List β}
    (h : as.mapM f = .ok bs) {b : β} (mem : b ∈ bs) : ∃ a ∈ as, f a = .ok b :=
  exists_of_mem_right (mapM_eq_ok.mp h) mem

theorem exists_ok_of_mapM {f : α → Except Fault β} {as : List α} {bs : List β}
    (h : as.mapM f = .ok bs) : ∀ a ∈ as, ∃ b, f a = .ok b := by
  intro a mem
  obtain ⟨b, -, passed⟩ := exists_of_mem_right (mapM_eq_ok.mp h).flip mem
  exact ⟨b, passed⟩

theorem exists_mapM {P : α → γ → Prop} {R : β → γ → Prop} {f : α → Except Fault β} {as : List α}
    {cs : List γ} (inputs : List.Forall₂ P as cs)
    (each : ∀ a c, P a c → ∃ b, f a = .ok b ∧ R b c) :
    ∃ bs, as.mapM f = .ok bs ∧ List.Forall₂ R bs cs := by
  induction inputs with
  | nil => exact ⟨[], rfl, .nil⟩
  | cons hac _ ih =>
    obtain ⟨b, hb, hbc⟩ := each _ _ hac
    obtain ⟨bs, hbs, hrest⟩ := ih
    refine ⟨b :: bs, ?_, .cons hbc hrest⟩
    rw [List.mapM_cons, hb, hbs]
    rfl

theorem mapM_eq_mapM {P : α → β → Prop} {f : α → Except Fault γ} {g : β → Except Fault γ}
    {as : List α} {bs : List β} (inputs : List.Forall₂ P as bs) (each : ∀ a b, P a b → f a = g b) :
    as.mapM f = bs.mapM g := by
  induction inputs with
  | nil => rfl
  | cons hab _ ih => rw [List.mapM_cons, List.mapM_cons, each _ _ hab, ih]

theorem mapM_eq_error {f : α → Except Fault β} {as : List α} {fault : Fault} :
    as.mapM f = .error fault ↔
      ∃ front a back, as = front ++ a :: back ∧ (∀ b ∈ front, ∃ c, f b = .ok c) ∧
        f a = .error fault := by
  induction as with
  | nil => simp [pure, Except.pure]
  | cons a as ih =>
    simp only [List.mapM_cons, bind_eq_error, pure, Except.pure, reduceCtorEq, and_false,
      exists_false, or_false, ih]
    constructor
    · rintro (h | ⟨b, hb, front, a', back, rfl, hfront, ha'⟩)
      · exact ⟨[], a, as, rfl, by simp, h⟩
      · refine ⟨a :: front, a', back, rfl, ?_, ha'⟩
        intro b' hb'
        rcases List.mem_cons.mp hb' with rfl | hb'
        · exact ⟨b, hb⟩
        · exact hfront b' hb'
    · rintro ⟨front, a', back, split, hfront, ha'⟩
      cases front with
      | nil =>
        obtain ⟨rfl, rfl⟩ := List.cons.inj split
        exact Or.inl ha'
      | cons b front =>
        obtain ⟨rfl, rfl⟩ := List.cons.inj split
        obtain ⟨c, hc⟩ := hfront a (List.mem_cons_self ..)
        exact Or.inr ⟨c, hc, front, a', back, rfl,
          fun b' hb' => hfront b' (List.mem_cons_of_mem _ hb'), ha'⟩

theorem mapM_eq_error_iff_findSome? {f : α → Except Fault β} {g : α → Option Fault}
    (each : ∀ a fault, f a = .error fault ↔ g a = some fault) {as : List α} {fault : Fault} :
    as.mapM f = .error fault ↔ as.findSome? g = some fault := by
  have passes : ∀ a, (∃ b, f a = .ok b) ↔ g a = none := by
    intro a
    rcases error_or_ok (f a) with ⟨fault, failed⟩ | ⟨b, passed⟩
    · simp [failed, (each a fault).mp failed]
    · cases h : g a with
      | none => simp [passed]
      | some fault => simp [(each a fault).mpr h]
  simp only [mapM_eq_error, List.findSome?_eq_some_iff, each, passes]
  constructor
  · rintro ⟨front, a, back, split, before, failed⟩
    exact ⟨front, a, back, split, failed, before⟩
  · rintro ⟨front, a, back, split, failed, before⟩
    exact ⟨front, a, back, split, before, failed⟩

theorem mapM_eq_some {f : α → Option β} {as : List α} {bs : List β} :
    as.mapM f = some bs ↔ List.Forall₂ (fun a b => f a = some b) as bs := by
  induction as generalizing bs with
  | nil => simp [eq_comm]
  | cons a as ih =>
    simp only [List.mapM_cons, Option.bind_eq_bind, Option.bind_eq_some_iff, Option.pure_def,
      Option.some.injEq, ih]
    constructor
    · rintro ⟨b, hb, bs, hbs, rfl⟩
      exact .cons hb hbs
    · intro h
      cases h with
      | cons hb hbs => exact ⟨_, hb, _, hbs, rfl⟩

/-- Whenever the first result is a value, the second one is a value that belongs to it. -/
def Leads (R : α → β → Prop) (x : Except Fault α) (y : Except Fault β) : Prop :=
  ∀ a, x = .ok a → ∃ b, y = .ok b ∧ R a b

namespace Leads

theorem ok {R : α → β → Prop} {a : α} {b : β} (h : R a b) :
    Leads R (Except.ok a : Except Fault α) (.ok b) := by
  intro a' ha'
  cases ha'
  exact ⟨b, rfl, h⟩

theorem error {R : α → β → Prop} (fault : Fault) (y : Except Fault β) :
    Leads R (.error fault) y := by
  intro a ha
  cases ha

theorem refl {x : Except Fault α} : Leads Eq x x :=
  fun a ha => ⟨a, ha, rfl⟩

theorem imp {R S : α → β → Prop} {x : Except Fault α} {y : Except Fault β} (h : Leads R x y)
    (weaken : ∀ a b, R a b → S a b) : Leads S x y := by
  intro a ha
  obtain ⟨b, hb, hab⟩ := h a ha
  exact ⟨b, hb, weaken a b hab⟩

theorem bind {R : α → β → Prop} {S : γ → δ → Prop} {x : Except Fault α} {y : Except Fault β}
    {f : α → Except Fault γ} {g : β → Except Fault δ} (h : Leads R x y)
    (rest : ∀ a b, R a b → Leads S (f a) (g b)) : Leads S (x >>= f) (y >>= g) := by
  intro c hc
  obtain ⟨a, ha, hfa⟩ := bind_eq_ok.mp hc
  obtain ⟨b, hb, hab⟩ := h a ha
  obtain ⟨d, hd, hcd⟩ := rest a b hab c hfa
  exact ⟨d, bind_eq_ok.mpr ⟨b, hb, hd⟩, hcd⟩

theorem mapM {P : α → β → Prop} {R : γ → δ → Prop} {f : α → Except Fault γ}
    {g : β → Except Fault δ} {as : List α} {bs : List β} (inputs : List.Forall₂ P as bs)
    (each : ∀ a b, P a b → Leads R (f a) (g b)) :
    Leads (List.Forall₂ R) (as.mapM f) (bs.mapM g) := by
  induction inputs with
  | nil => exact ok .nil
  | cons hab _ ih =>
    simp only [List.mapM_cons]
    refine bind (each _ _ hab) fun c d hcd => bind ih fun cs ds hcs => ok (.cons hcd hcs)

theorem bind_eq {x y : Except Fault α} {f g : α → Except Fault β} (h : Leads Eq x y)
    (rest : ∀ a, Leads Eq (f a) (g a)) : Leads Eq (x >>= f) (y >>= g) := by
  refine bind h fun a b hab => ?_
  subst hab
  exact rest a

theorem mapM_same {R : β → γ → Prop} {f : α → Except Fault β} {g : α → Except Fault γ}
    {as : List α} (each : ∀ a, Leads R (f a) (g a)) :
    Leads (List.Forall₂ R) (as.mapM f) (as.mapM g) := by
  refine mapM (List.forall₂_same.mpr fun a _ => rfl) ?_
  rintro a b rfl
  exact each a

theorem mapM_eq {f g : α → Except Fault β} {as : List α} (each : ∀ a, Leads Eq (f a) (g a)) :
    Leads Eq (as.mapM f) (as.mapM g) := by
  have h : Leads (List.Forall₂ Eq) (as.mapM f) (as.mapM g) := mapM_same each
  rwa [List.forall₂_eq_eq_eq] at h

end Leads

end Outcome

namespace Logged

@[simp]
theorem result_pure (a : α) : (pure a : Logged α).result = .ok a := rfl

@[simp]
theorem result_report (event : Event) : (report event).result = .ok () := rfl

@[simp]
theorem result_lift (x : Except Fault α) : (liftM x : Logged α).result = x := rfl

theorem lift_ok (a : α) : (liftM (Except.ok a : Except Fault α) : Logged α) = pure a := rfl

theorem lift_map (f : α → β) (x : Except Fault α) :
    (liftM (f <$> x) : Logged β) = f <$> (liftM x : Logged α) := by
  cases x <;> rfl

@[simp]
theorem result_bind (x : Logged α) (f : α → Logged β) :
    (x >>= f).result = x.result >>= fun a => (f a).result := by
  rcases x with ⟨events, fault | a⟩
  · rfl
  · rfl

theorem bind_congr_of_ok {x : Logged α} {f g : α → Logged β}
    (same : ∀ a, x.result = .ok a → f a = g a) : x >>= f = x >>= g := by
  rcases x with ⟨events, fault | a⟩
  · rfl
  · have same := same a rfl
    simp only [bind, andThen, same]

theorem lift_bind (x : Except Fault α) (f : α → Except Fault β) :
    (liftM (x >>= f) : Logged β) = (liftM x : Logged α) >>= fun a => liftM (f a) := by
  cases x <;> rfl

theorem map_eq (f : α → β) (x : Logged α) : f <$> x = ⟨x.events, x.result.map f⟩ := by
  rcases x with ⟨events, fault | a⟩
  · rfl
  · exact congrArg (fun events => (⟨events, .ok (f a)⟩ : Logged β)) (List.append_nil events)

theorem mapM_congr {R : α → β → Prop} {f : α → Logged γ} {g : β → Logged γ} {as : List α}
    {bs : List β} (inputs : List.Forall₂ R as bs) (h : ∀ a b, R a b → f a = g b) :
    as.mapM f = bs.mapM g := by
  induction inputs with
  | nil => rfl
  | cons hab _ ih => rw [List.mapM_cons, List.mapM_cons, h _ _ hab, ih]

theorem mapM_map_result (f : α → Logged β) (g : β → γ) (as : List α) :
    (as.mapM fun a => g <$> f a) = List.map g <$> as.mapM f := by
  induction as with
  | nil => rfl
  | cons a as ih =>
    simp only [List.mapM_cons, ih, bind_map_left, map_bind, map_pure, List.map_cons]

@[simp]
theorem result_mapM (f : α → Logged β) (as : List α) :
    (as.mapM f).result = as.mapM fun a => (f a).result := by
  induction as with
  | nil => rfl
  | cons a as ih =>
    simp only [List.mapM_cons, result_bind, ih]
    rfl

end Logged

end InvertedIndex
