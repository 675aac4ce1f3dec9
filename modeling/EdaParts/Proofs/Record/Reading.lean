import EdaParts.Record.Fields

/-!
# What a reading yields

A reading of a record that does not skip it yields one result, whatever it has noticed on the way. A
reading in steps yields what its last step makes of the results before it.

* `Logged.run_bind_eq_ok_iff`, `bind_eq_ok_iff`, `mapError_eq_ok_iff`, `map_eq_ok_iff` : the result of steps that may
  fail;
* `Fields.text_eq_ok_iff`, `Fields.number_eq_ok_iff` : the text and the number of a field; `Reading.Yields` : the
  result of a reading;
* `Reading.yields_bind` and the lemmas around it : how it is put together, step by step; `Reading.value_bind` and the
  lemmas after it : so is the outcome.
-/

namespace EdaParts

/-- The outcome of steps that may fail is that of the first, or what the others make of its result. -/
theorem Logged.run_value_bind {ε α β : Type} (x : ExceptT ε Logged α) (f : α → ExceptT ε Logged β) :
    (x >>= f).run.value = x.run.value.bind fun a => (f a).run.value := by
  show (ExceptT.bindCont f x.run.value).value = _
  cases x.run.value <;> rfl

/-- Steps that may fail give a result if each of them does. -/
theorem Logged.run_bind_eq_ok_iff {ε α β : Type} {x : ExceptT ε Logged α} {f : α → ExceptT ε Logged β} {b : β} :
    (x >>= f).run.value = .ok b ↔ ∃ a, x.run.value = .ok a ∧ (f a).run.value = .ok b := by
  rw [run_value_bind]
  cases x.run.value <;> simp [Except.bind]

/-- Steps that may fail end with the error of the first. -/
theorem Logged.run_bind_of_error {ε α β : Type} {x : ExceptT ε Logged α} {f : α → ExceptT ε Logged β} {e : ε}
    (h : x.run.value = .error e) : (x >>= f).run.value = .error e := by
  rw [run_value_bind, h]
  rfl

/-- Steps without notices that may fail give a result if each of them does. -/
theorem bind_eq_ok_iff {ε α β : Type} {x : Except ε α} {f : α → Except ε β} {b : β} :
    (x >>= f) = .ok b ↔ ∃ a, x = .ok a ∧ f a = .ok b := by
  cases x <;> simp [bind, Except.bind]

/-- Other words for an error do not make a result. -/
theorem mapError_eq_ok_iff {ε δ α : Type} {x : Except ε α} {g : ε → δ} {a : α} :
    x.mapError g = .ok a ↔ x = .ok a := by
  cases x with
  | error e => exact ⟨nofun, nofun⟩
  | ok b => exact ⟨fun h => congrArg Except.ok (Except.ok.inj h), fun h => congrArg Except.ok (Except.ok.inj h)⟩

/-- What is made of a result needs the result. -/
theorem map_eq_ok_iff {ε α β : Type} {x : Except ε α} {f : α → β} {b : β} :
    x.map f = .ok b ↔ ∃ a, x = .ok a ∧ f a = b := by
  cases x <;> simp [Except.map]

theorem exists_of_isOk {ε α : Type} {x : Except ε α} (h : x.isOk = true) : ∃ a, x = .ok a := by
  cases x with
  | error e => nomatch h
  | ok a => exact ⟨a, rfl⟩

namespace Fields

variable {f : Fields} {i : Nat}

theorem numberIn_eq_ok_iff {x : Float} {cs : List Char} : f.numberIn i cs = .ok x ↔ finiteNumber? cs = some x := by
  unfold numberIn
  cases finiteNumber? cs <;> simp

theorem text_eq_ok_iff {s : String} : f.text i = .ok s ↔ f.get? i = some s := by
  unfold text
  cases f.get? i <;> simp

theorem number_eq_ok_iff {x : Float} :
    f.number i = .ok x ↔ ∃ s, f.get? i = some s ∧ finiteNumber? s.toList = some x := by
  unfold number
  simp only [bind_eq_ok_iff, text_eq_ok_iff, numberIn_eq_ok_iff]

end Fields

namespace Reading

variable {α β : Type}

/-- The reading does not skip the record, and this is its result. -/
def Yields (x : Reading α) (a : α) : Prop :=
  x.run.value = .ok a

@[simp] theorem yields_pure {a b : α} : Yields (pure a) b ↔ a = b :=
  ⟨Except.ok.inj, congrArg Except.ok⟩

@[simp] theorem yields_throw {skip : Skip} {a : α} : ¬ Yields (throw skip) a :=
  fun h => nomatch h

@[simp] theorem yields_note {level : Level} {text : String} {u : Unit} : Yields (note level text) u :=
  rfl

@[simp] theorem yields_liftM {x : Except Skip α} {a : α} : Yields (liftM x) a ↔ x = .ok a :=
  Iff.rfl

@[simp] theorem yields_bind {x : Reading α} {f : α → Reading β} {b : β} :
    Yields (x >>= f) b ↔ ∃ a, Yields x a ∧ Yields (f a) b :=
  Logged.run_bind_eq_ok_iff

@[simp] theorem yields_map {x : Reading α} {f : α → β} {b : β} :
    Yields (f <$> x) b ↔ ∃ a, Yields x a ∧ f a = b := by
  rw [map_eq_pure_bind, yields_bind]
  simp only [yields_pure]

/-- The outcome of steps is that of the first, or what the others make of its result. -/
theorem value_bind (x : Reading α) (f : α → Reading β) :
    (x >>= f).run.value = x.run.value.bind fun a => (f a).run.value :=
  Logged.run_value_bind x f

/-- Steps of the same outcomes have the same outcome. -/
theorem value_bind_congr {x x' : Reading α} {g g' : α → Reading β} (hx : x.run.value = x'.run.value)
    (hg : ∀ a, (g a).run.value = (g' a).run.value) : (x >>= g).run.value = (x' >>= g').run.value := by
  rw [value_bind, value_bind, hx, funext hg]

/-- Steps whose last outcome is changed have a changed outcome. -/
theorem value_bind_map {x : Reading α} {g g' : α → Reading β} {φ : β → β}
    (hg : ∀ a, (g a).run.value = (g' a).run.value.map φ) :
    (x >>= g).run.value = (x >>= g').run.value.map φ := by
  rw [value_bind, value_bind]
  cases x.run.value with
  | error e => rfl
  | ok a => exact hg a

theorem value_bind_ne_error {x : Reading α} {g : α → Reading β} {e : Skip}
    (hx : x.run.value ≠ .error e) (hg : ∀ a, (g a).run.value ≠ .error e) : (x >>= g).run.value ≠ .error e := by
  rw [value_bind]
  cases hvalue : x.run.value with
  | error e' =>
    rw [hvalue] at hx
    exact fun h => hx (congrArg Except.error (Except.error.inj h))
  | ok a => exact hg a

/-- A step in either of two ways, before what is done with its result. -/
theorem yields_ite_bind {c : Prop} [Decidable c] {x y : Reading α} {f : α → Reading β} {b : β} :
    Yields (if c then x >>= f else y >>= f) b ↔ ∃ a, Yields (if c then x else y) a ∧ Yields (f a) b := by
  split <;> exact yields_bind

end Reading

end EdaParts
