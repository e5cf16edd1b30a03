import InvertedIndex.Event
import InvertedIndex.Fault

/-!
Results with the events on the way to them. A failure keeps the events that came before it.
-/

set_option autoImplicit false
set_option relaxedAutoImplicit false

namespace InvertedIndex

/-- A result together with the events reported on the way to it, oldest first. -/
@[ext]
structure Logged (α : Type) where
  events : List Event
  result : Except Fault α

namespace Logged

variable {α β γ : Type}

def ofValue (a : α) : Logged α :=
  ⟨[], .ok a⟩

/-- Goes on with the value of a step, or stops at its fault; events add up either way. -/
def andThen (x : Logged α) (f : α → Logged β) : Logged β :=
  match x with
  | ⟨events, .ok a⟩ =>
    match f a with
    | ⟨more, result⟩ => ⟨events ++ more, result⟩
  | ⟨events, .error fault⟩ => ⟨events, .error fault⟩

def ofResult (result : Except Fault α) : Logged α :=
  ⟨[], result⟩

def report (event : Event) : Logged Unit :=
  ⟨[event], .ok ()⟩

def fail (fault : Fault) : Logged α :=
  ⟨[], .error fault⟩

instance : Monad Logged where
  pure := ofValue
  bind := andThen

instance : MonadLift (Except Fault) Logged where
  monadLift := ofResult

instance : LawfulMonad Logged := LawfulMonad.mk' Logged
  (fun x => by
    rcases x with ⟨events, result | a⟩ <;> simp [Functor.map, andThen, ofValue])
  (fun a f => by simp [pure, bind, andThen, ofValue])
  (fun x f g => by
    rcases x with ⟨events, result | a⟩
    · rfl
    · simp only [bind, andThen]
      rcases f a with ⟨more, result | b⟩
      · rfl
      · simp)

end Logged

end InvertedIndex
