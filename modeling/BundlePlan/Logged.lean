import BundlePlan.Event

/-! Results together with the events reported on the way and the queries evaluated on the way, both
in order. -/
namespace BundlePlan

structure Logged (α : Type) where
  value : α
  events : List Event
  /-- The modules whose queries were evaluated, one entry for each evaluation; no log shows them. -/
  queried : List ModuleId

namespace Logged

def report (event : Event) : Logged Unit := ⟨(), [event], []⟩

/-- The query that `id` is declared with is evaluated. -/
def query (id : ModuleId) (answer : List ModuleId) : Logged (List ModuleId) := ⟨answer, [], [id]⟩

instance : Monad Logged where
  pure a := ⟨a, [], []⟩
  bind first next :=
    let second := next first.value
    ⟨second.value, first.events ++ second.events, first.queried ++ second.queried⟩

variable {α β : Type}

@[simp] theorem value_pure (a : α) : (pure a : Logged α).value = a := rfl

@[simp] theorem events_pure (a : α) : (pure a : Logged α).events = [] := rfl

@[simp] theorem queried_pure (a : α) : (pure a : Logged α).queried = [] := rfl

@[simp] theorem value_bind (first : Logged α) (next : α → Logged β) :
    (first >>= next).value = (next first.value).value := rfl

@[simp] theorem events_bind (first : Logged α) (next : α → Logged β) :
    (first >>= next).events = first.events ++ (next first.value).events := rfl

@[simp] theorem queried_bind (first : Logged α) (next : α → Logged β) :
    (first >>= next).queried = first.queried ++ (next first.value).queried := rfl

instance : LawfulMonad Logged := LawfulMonad.mk' Logged
  (fun logged => by cases logged; simp [Functor.map])
  (fun a next => by simp [bind, pure])
  (fun first next last => by simp [bind, List.append_assoc])

end Logged

namespace Declaration

/-- The dependencies that `id` is declared with; a query is evaluated for them. -/
def evaluate (id : ModuleId) : Declaration → Logged ModuleSet
  | none => pure ∅
  | fixed dependencies => pure dependencies
  | query answer => do return .ofList (← Logged.query id answer)

@[simp] theorem value_evaluate (id : ModuleId) (declaration : Declaration) :
    (declaration.evaluate id).value = declaration.dependencies := by cases declaration <;> rfl

@[simp] theorem events_evaluate (id : ModuleId) (declaration : Declaration) :
    (declaration.evaluate id).events = [] := by cases declaration <;> rfl

def isQuery : Declaration → Bool
  | query _ => true
  | _ => false

@[simp] theorem queried_evaluate (id : ModuleId) (declaration : Declaration) :
    (declaration.evaluate id).queried = if declaration.isQuery then [id] else [] := by
  cases declaration <;> rfl

end Declaration
end BundlePlan
