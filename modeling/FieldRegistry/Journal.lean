/-!
The journal of a run: messages with a level, values that carry the messages written on the way to
them, and actions over a state. State and messages survive a failure.
-/

namespace FieldRegistry

inductive Level where
  | debug
  | info
  | error
deriving DecidableEq

structure Message where
  level : Level
  text : String
deriving DecidableEq

/-- A value with the messages written on the way to it, oldest first. -/
structure Logged (α : Type) where
  value : α
  messages : List Message

namespace Logged

instance : Monad Logged where
  pure a := ⟨a, []⟩
  bind x f :=
    let y := f x.value
    ⟨y.value, x.messages ++ y.messages⟩

@[simp] theorem value_pure {α : Type} (a : α) : (pure a : Logged α).value = a := rfl

@[simp] theorem messages_pure {α : Type} (a : α) : (pure a : Logged α).messages = [] := rfl

@[simp] theorem value_bind {α β : Type} (x : Logged α) (f : α → Logged β) :
    (x >>= f).value = (f x.value).value := rfl

@[simp] theorem messages_bind {α β : Type} (x : Logged α) (f : α → Logged β) :
    (x >>= f).messages = x.messages ++ (f x.value).messages := rfl

instance : LawfulMonad Logged := LawfulMonad.mk' Logged
  (fun _ => by simp [Functor.map])
  (fun _ _ => by simp [bind, pure])
  (fun _ _ _ => by simp [bind])

/-- Changes the value and keeps the messages. -/
def map {α β : Type} (f : α → β) (x : Logged α) : Logged β := ⟨f x.value, x.messages⟩

/-- Writes one message. -/
def write (level : Level) (text : String) : Logged Unit := ⟨(), [⟨level, text⟩]⟩

def debug (text : String) : Logged Unit := write .debug text

def info (text : String) : Logged Unit := write .info text

end Logged

/-- A value or a failure, with messages. -/
abbrev Checked (ε : Type) := ExceptT ε Logged

/-- A computation over a state that may fail. -/
abbrev Action (ε σ : Type) := ExceptT ε (StateT σ Logged)

instance {ε σ : Type} : MonadLift (Checked ε) (Action ε σ) where
  monadLift x := ExceptT.mk (StateT.lift x.run)

/-- The result of an action from a given state, the state after it, and the messages. -/
def Action.perform {ε σ α : Type} (action : Action ε σ α) (s : σ) : Logged (Except ε α × σ) :=
  action.run.run s

/-- Runs an action on a state of its own, which a failure drops. -/
def Action.alone {ε τ α : Type} (t : τ) (action : Action ε τ α) : Checked ε (α × τ) :=
  ExceptT.mk ((action.perform t).map fun (result, t') => result.map (·, t'))

/-- Runs an action on a state of its own, next to the one that is there. -/
def Action.within {ε σ τ α : Type} (t : τ) (action : Action ε τ α) : Action ε σ (α × τ) :=
  ExceptT.mk (StateT.lift (action.alone t).run)

/-- Runs an action on a part of the state. -/
def Action.focus {ε σ τ α : Type} (part : σ → τ) (replace : σ → τ → σ) (action : Action ε τ α) :
    Action ε σ α :=
  ExceptT.mk fun s => (action.perform (part s)).map fun (result, t) => (result, replace s t)

/-- A result without messages. -/
def Checked.ofExcept {ε α : Type} (result : Except ε α) : Checked ε α :=
  ExceptT.mk (pure result)

end FieldRegistry
