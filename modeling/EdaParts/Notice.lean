/-!
# Notices

What is worth telling about a conversion goes along with its result as data: `Logged` pairs a value
with the notices given on the way to it, in order.
-/

namespace EdaParts

/-- How much a notice matters. -/
inductive Level where
  | error
  | warn
  | info
  | debug
  deriving Repr, DecidableEq

/-- A line for the log. -/
structure Notice where
  level : Level
  text : String
  deriving Repr, DecidableEq

/-- A value with the notices given on the way to it. -/
structure Logged (α : Type) where
  value : α
  notices : List Notice

namespace Logged

/-- The notices of the first part stand before those of the second. -/
instance : Monad Logged where
  pure a := ⟨a, []⟩
  bind l f := ⟨(f l.value).value, l.notices ++ (f l.value).notices⟩

def note (level : Level) (text : String) : Logged Unit :=
  ⟨(), [⟨level, text⟩]⟩

/-! ## Values and notices of composed parts -/

variable {α β : Type}

@[ext] theorem ext {l m : Logged α} (hv : l.value = m.value) (hn : l.notices = m.notices) :
    l = m := by
  cases l; cases m; simp_all

@[simp] theorem value_pure (a : α) : (pure a : Logged α).value = a := rfl

@[simp] theorem notices_pure (a : α) : (pure a : Logged α).notices = [] := rfl

@[simp] theorem value_bind (l : Logged α) (f : α → Logged β) :
    (l >>= f).value = (f l.value).value := rfl

@[simp] theorem notices_bind (l : Logged α) (f : α → Logged β) :
    (l >>= f).notices = l.notices ++ (f l.value).notices := rfl

theorem value_foldlM (step : α → β → Logged α) (items : List β) (a : α) :
    (items.foldlM step a).value = items.foldl (fun a b => (step a b).value) a := by
  induction items generalizing a with
  | nil => rfl
  | cons b items ih => rw [List.foldlM_cons, value_bind, ih, List.foldl_cons]

instance : LawfulMonad Logged := LawfulMonad.mk' Logged
  (fun l => by ext1 <;> simp [Functor.map])
  (fun a f => by ext1 <;> simp)
  (fun l f g => by ext1 <;> simp)

end Logged

end EdaParts
