import EdaParts.Json.Layout
import EdaParts.Proofs.Json.Values

/-!
# Records read from objects as they are written

A record is filled in member by member. What each of its fields makes of a document is given by name, as a change of
the draft (`update`), so that what a record is filled with can be told from the members alone.

* `Layout.fill` : what all the members make of a draft, if the record can be read from them;
* `Layout.takes_object` : a record is read from an object as that;
* `Layout.isSome_fill_iff` : it can be read just if all names say something, and each field stands there once, or not
  at all where it may be left out, and can be read;
* `Layout.get_of_fill` : a part of the record that one field alone fills in is that field's, wherever it stands;
* `Members.only?`, `Layout.Fills` : what the only document under a name stands for, and fields that fill in just that.
-/

namespace EdaParts.Json

/-- What the only document under a name stands for, and `absent` if there is none. -/
def Members.only? {β : Type} (members : Members) (name : String) (absent : Option β) (read? : Document → Option β) :
    Option β :=
  match members.named name with
  | [] => absent
  | [d] => read? d
  | _ => none

namespace Layout

variable {σ β : Type} {l : Layout σ} {update : String → Document → Option (σ → σ)} {seen : List String}
  {rest : List Char}

/-- What the members make of a draft, after those of the names seen. -/
def fill (l : Layout σ) (update : String → Document → Option (σ → σ)) : (seen : List String) → Members → Option (σ → σ)
  | seen, .nil _ => if (l.missing? seen).isNone then some id else none
  | seen, .cons _ marks _ _ d _ more =>
    ((said? marks).map String.ofList).bind fun name =>
      match l.fields.find? (·.name = name) with
      | none => fill l update seen more
      | some _ =>
        if seen.contains name then none
        else (update name d).bind fun g => (fill l update (name :: seen) more).map (· ∘ g)

/-! ## Reading -/

theorem membersInto_of_none {rounds : Nat} {first : Bool} {draft : σ} {cs : List Char}
    (h : nextName first cs = .ok none) :
    (l.membersInto (rounds + 1) first seen draft cs).toOption =
      if (l.missing? seen).isNone then some (draft, afterClosing cs) else none := by
  rw [membersInto, h]
  simp only [bind, Except.bind]
  cases l.missing? seen <;> rfl

/-- A member is read name first, and refused with its name. -/
theorem toOption_membersInto {rounds : Nat} {first : Bool} {draft : σ} {cs ds : List Char} {name : Option String}
    (h : (nextName first cs).toOption = name.map fun name => some (name, ds)) :
    (l.membersInto (rounds + 1) first seen draft cs).toOption = name.bind fun name =>
      match l.fields.find? (·.name = name) with
      | none => (afterColon ds).toOption.bind fun es => (skipValue rounds es).toOption.bind fun es =>
          (l.membersInto rounds false seen draft es).toOption
      | some f =>
        if seen.contains name then none
        else (afterColon ds).toOption.bind fun es => (f.read draft es).toOption.bind fun x =>
          (l.membersInto rounds false (name :: seen) x.1 x.2).toOption := by
  rw [membersInto, toOption_bind, h, Option.bind_map]
  cases name with
  | none => rfl
  | some name =>
    simp only [Option.bind_some, Function.comp_apply]
    cases l.fields.find? (·.name = name) with
    | none => simp only [toOption_bind]
    | some f =>
      by_cases hseen : seen.contains name = true
      · simp only [if_pos hseen]
        rfl
      · simp only [if_neg hseen, toOption_bind]

theorem membersInto_blanks (rounds : Nat) (first : Bool) (draft : σ) (blanks : Blanks) (cs : List Char) :
    l.membersInto rounds first seen draft (blanks.1 ++ cs) = l.membersInto rounds first seen draft cs := by
  cases rounds with
  | zero => rfl
  | succ rounds =>
    rw [membersInto, membersInto, nextName, nextName, afterClosing, afterClosing, skipSpaces_blanks]

/-- A field is read from a document as its change of the draft. -/
def Changes (update : String → Document → Option (σ → σ)) (f : Field σ) (d : Document) : Prop :=
  ∀ draft, Takes (f.read draft) d.text ((update f.name d).map fun g => g draft)

theorem membersInto_text (members : Members) (rounds : Nat) (first : Bool) (seen : List String) (draft : σ)
    (rest : List Char) (hrounds : 2 * (members.text first).length < rounds)
    (hfields : ∀ f ∈ l.fields, ∀ d ∈ members.named f.name, Changes update f d) :
    (l.membersInto rounds first seen draft (members.text first ++ '\x7d' :: rest)).toOption =
      (l.fill update seen members).map fun g => (g draft, rest) := by
  obtain ⟨rounds, rfl⟩ : ∃ r, rounds = r + 1 := ⟨rounds - 1, by omega⟩
  cases members with
  | nil blanks =>
    rw [Members.text_nil, membersInto_of_none (nextName_nil _ blanks rest), fill]
    show (if _ then some (draft, afterClosing (blanks.1 ++ Bracket.object.closing :: rest)) else none) = _
    rw [afterClosing_blanks .object]
    split <;> rfl
  | cons before marks left right d after more =>
    have hpos := d.length_text_pos
    simp only [Members.text_cons, memberLead, List.length_append, List.length_cons] at hrounds
    have hnext := nextName_cons first before marks
      (left.1 ++ ':' :: (right.1 ++ (d.text ++ (after.1 ++ (more.text false ++ '\x7d' :: rest)))))
    have hends : Ends (after.1 ++ (more.text false ++ '\x7d' :: rest)) :=
      ends_blanks_append after (more.ends_text rest)
    rw [Members.text_cons, memberLead]
    simp only [List.append_assoc, List.cons_append]
    rw [toOption_membersInto hnext, fill, afterColon_blanks]
    simp only [Members.named] at hfields
    cases hname : (said? marks).map String.ofList with
    | none => rfl
    | some name =>
      simp only [hname] at hfields
      have hmore (seen : List String) (draft : σ) :
          (l.membersInto rounds false seen draft (after.1 ++ (more.text false ++ '\x7d' :: rest))).toOption =
            (l.fill update seen more).map fun g => (g draft, rest) := by
        rw [membersInto_blanks]
        refine membersInto_text more rounds false seen draft rest (by omega) fun f hf e he => hfields f hf e ?_
        split
        · exact List.mem_cons_of_mem _ he
        · exact he
      simp only [Option.bind_some]
      cases hfind : l.fields.find? (·.name = name) with
      | none =>
        simp only
        rw [← hmore seen draft]
        show (skipValue rounds _).toOption.bind _ = _
        rw [skipValue_text d (by omega) right hends]
        rfl
      | some f =>
        have hf : f ∈ l.fields := List.mem_of_find?_eq_some hfind
        obtain rfl : f.name = name := by simpa using List.find?_some hfind
        by_cases hseen : seen.contains f.name = true
        · simp only [if_pos hseen]
          rfl
        · simp only [if_neg hseen]
          have hread := hfields f hf d (by rw [if_pos rfl]; exact List.mem_cons_self) draft right _ hends
          show (f.read draft _).toOption.bind _ = _
          rw [hread, Option.bind_map]
          cases update f.name d with
          | none => rfl
          | some g =>
            refine (hmore _ _).trans ?_
            show _ = (Option.map (· ∘ g) (l.fill update (f.name :: seen) more)).map _
            rw [Option.map_map]
            rfl

/-- **A record is read from an object** as what its members make of the draft. -/
theorem takes_object (members : Members) (draft : σ)
    (hfields : ∀ f ∈ l.fields, ∀ d ∈ members.named f.name, Changes update f d) :
    Takes (l.read draft) (Document.object members).text ((l.fill update [] members).map fun g => g draft) := by
  intro blanks rest _
  have hcs : skipSpaces (blanks.1 ++ ((Document.object members).text ++ rest)) =
      '\x7b' :: (members.text true ++ '\x7d' :: rest) := by
    rw [skipSpaces_text, Document.text, List.cons_append, List.append_assoc]
    rfl
  rw [read, hcs, Option.map_map]
  refine membersInto_text members _ true [] draft rest ?_ hfields
  simp only [roundsFor, List.length_append]
  omega

theorem changes_of {α : Type} {name : String} {presence : Presence} {read : Reader α} {set : σ → α → σ} {d : Document}
    {x : Option α} (hread : Takes read d.text x) (hupdate : update name d = x.map fun a draft => set draft a) :
    Changes update (Field.of name presence read set) d := by
  intro draft blanks rest hrest
  show ((fun x : α × List Char => (set draft x.1, x.2)) <$> read _).toOption = (Option.map _ (update name d)).map _
  rw [toOption_map, hread blanks rest hrest, hupdate, Option.map_map, Option.map_map, Option.map_map]
  rfl

/-! ## What a record is filled with -/

/-- A field is settled by the documents under its name: it may be missing, or there is one and it can be read. -/
def Settled (update : String → Document → Option (σ → σ)) (seen : List String) (f : Field σ) : List Document → Prop
  | [] => f.presence = .always → f.name ∈ seen
  | [d] => f.name ∉ seen ∧ (update f.name d).isSome
  | _ => False

theorem settled_cons {f : Field σ} {d : Document} {ds : List Document} :
    Settled update seen f (d :: ds) ↔
      f.name ∉ seen ∧ (update f.name d).isSome ∧ Settled update (f.name :: seen) f ds := by
  rcases ds with _ | ⟨e, _ | ⟨_, _⟩⟩
  · simp [Settled]
  · simp [Settled]
  · simp [Settled]

/-- Names of other fields do not settle a field. -/
theorem settled_cons_seen {f : Field σ} {name : String} (hne : f.name ≠ name) (ds : List Document) :
    Settled update (name :: seen) f ds ↔ Settled update seen f ds := by
  rcases ds with _ | ⟨d, _ | ⟨_, _⟩⟩
  · simp [Settled, hne]
  · simp [Settled, hne]
  · exact Iff.rfl

theorem isNone_missing?_iff : (l.missing? seen).isNone ↔ ∀ f ∈ l.fields, f.presence = .always → f.name ∈ seen := by
  simp [missing?, List.find?_eq_none]

theorem find?_eq_none_iff {name : String} :
    l.fields.find? (·.name = name) = none ↔ ∀ f ∈ l.fields, f.name ≠ name := by
  simp [List.find?_eq_none]

/-- The field of a member is settled by its document first; the others are settled behind it. -/
theorem settled_named_cons {field f : Field σ} {before left right after : Blanks} {marks : List Mark} {d : Document}
    {more : Members} (hmarks : (said? marks).map String.ofList = some field.name) :
    Settled update seen f ((Members.cons before marks left right d after more).named f.name) ↔
      (f.name = field.name → field.name ∉ seen ∧ (update field.name d).isSome) ∧
        Settled update (field.name :: seen) f (more.named f.name) := by
  rw [Members.named, hmarks]
  by_cases hf : f.name = field.name
  · rw [if_pos (congrArg some hf.symm), settled_cons, hf]
    simp [and_assoc]
  · rw [if_neg fun h => hf (Option.some.inj h).symm, settled_cons_seen hf]
    simp [hf]

/-- **A record can be read** just if all names say something, and each field stands there once, or not at all where it
may be left out, and can be read. -/
theorem isSome_fill_iff (members : Members) (seen : List String) : (l.fill update seen members).isSome ↔
    members.Spelled ∧ ∀ f ∈ l.fields, Settled update seen f (members.named f.name) := by
  cases members with
  | nil blanks =>
    rw [fill, Members.Spelled, true_and]
    refine Iff.trans ?_ isNone_missing?_iff
    by_cases h : (l.missing? seen).isNone = true <;> simp [h]
  | cons before marks left right d after more =>
    rw [fill, Members.Spelled]
    cases hsaid : said? marks with
    | none => simp
    | some cs =>
      have hmarks : (said? marks).map String.ofList = some (String.ofList cs) := congrArg _ hsaid
      rw [Option.map_some, Option.bind_some]
      cases hfind : l.fields.find? (·.name = String.ofList cs) with
      | none =>
        dsimp only
        rw [isSome_fill_iff more seen, Option.isSome_some, eq_self, true_and]
        refine and_congr_right fun _ => forall₂_congr fun f hf => ?_
        rw [Members.named, hmarks, if_neg fun h => find?_eq_none_iff.mp hfind f hf (Option.some.inj h).symm]
      | some field =>
        have hfield : field ∈ l.fields := List.mem_of_find?_eq_some hfind
        have hname : field.name = String.ofList cs := by simpa using List.find?_some hfind
        rw [← hname] at hmarks ⊢
        have hsettled (f : Field σ) :
            Settled update seen f ((Members.cons before marks left right d after more).named f.name) ↔
              (f.name = field.name → field.name ∉ seen ∧ (update field.name d).isSome) ∧
                Settled update (field.name :: seen) f (more.named f.name) :=
          settled_named_cons hmarks
        simp only [hsettled]
        by_cases hseen : field.name ∈ seen
        · rw [if_pos (List.elem_eq_true_of_mem hseen)]
          exact iff_of_false nofun fun h => ((h.2 field hfield).1 rfl).1 hseen
        · rw [if_neg fun h => hseen (List.mem_of_elem_eq_true h)]
          have hfill := isSome_fill_iff more (field.name :: seen)
          cases hupdate : update field.name d with
          | none => exact iff_of_false nofun fun h => nomatch ((h.2 field hfield).1 rfl).2
          | some g =>
            rw [Option.bind_some, Option.isSome_map, hfill]
            simp [hseen]

/-- Fields of other names leave the part of the record. -/
def Apart (update : String → Document → Option (σ → σ)) (name : String) (get : σ → β) : Prop :=
  ∀ other ≠ name, ∀ d g, update other d = some g → ∀ draft, get (g draft) = get draft

/-- A record is filled member by member. -/
theorem fill_cons_eq_some {before left right after : Blanks} {marks : List Mark} {d : Document} {more : Members}
    {h : σ → σ} (hfill : l.fill update seen (.cons before marks left right d after more) = some h) :
    ∃ name, (said? marks).map String.ofList = some name ∧
      (((∀ f ∈ l.fields, f.name ≠ name) ∧ l.fill update seen more = some h) ∨
        ∃ g k, update name d = some g ∧ l.fill update (name :: seen) more = some k ∧ h = k ∘ g) := by
  rw [fill] at hfill
  obtain ⟨name, hname, hfill⟩ := Option.bind_eq_some_iff.mp hfill
  refine ⟨name, hname, ?_⟩
  split at hfill
  · next hfind => exact .inl ⟨find?_eq_none_iff.mp hfind, hfill⟩
  · split at hfill
    · cases hfill
    · obtain ⟨g, hg, hfill⟩ := Option.bind_eq_some_iff.mp hfill
      obtain ⟨k, hk, rfl⟩ := Option.map_eq_some_iff.mp hfill
      exact .inr ⟨g, k, hg, hk, rfl⟩

/-- What no member fills in stays as it was. -/
theorem get_of_fill_none {name : String} {get : σ → β} (hapart : Apart update name get) (members : Members)
    (hnone : members.named name = []) {seen : List String} {h : σ → σ} (hfill : l.fill update seen members = some h)
    (draft : σ) : get (h draft) = get draft := by
  cases members with
  | nil blanks =>
    rw [fill] at hfill
    split at hfill
    · rw [← Option.some.inj hfill, id]
    · cases hfill
  | cons before marks left right d after more =>
    obtain ⟨other, hother, ⟨-, hmore⟩ | ⟨g, k, hg, hk, rfl⟩⟩ := fill_cons_eq_some hfill
    all_goals
      have hne : other ≠ name := fun h => by
        rw [Members.named, hother, if_pos (congrArg some h)] at hnone
        cases hnone
      rw [Members.named, hother, if_neg fun h => hne (Option.some.inj h)] at hnone
    · exact get_of_fill_none hapart more hnone hmore draft
    · exact (get_of_fill_none hapart more hnone hk (g draft)).trans (hapart other hne d g hg draft)

/-- **A part of a record that one field alone fills in** is what that field makes of it, wherever it stands. -/
theorem get_of_fill {f : Field σ} {get : σ → β} {change : β → β} {e : Document} (hf : f ∈ l.fields)
    (hapart : Apart update f.name get)
    (hset : ∀ g, update f.name e = some g → ∀ draft, get (g draft) = change (get draft))
    (members : Members) (honce : members.named f.name = [e]) {seen : List String} {h : σ → σ}
    (hfill : l.fill update seen members = some h) (draft : σ) : get (h draft) = change (get draft) := by
  cases members with
  | nil blanks => cases honce
  | cons before marks left right d after more =>
    obtain ⟨other, hother, ⟨hunknown, hmore⟩ | ⟨g, k, hg, hk, rfl⟩⟩ := fill_cons_eq_some hfill
    · rw [Members.named, hother, if_neg fun h => hunknown f hf (Option.some.inj h).symm] at honce
      exact get_of_fill hf hapart hset more honce hmore draft
    · by_cases hname : other = f.name
      · rw [Members.named, hother, if_pos (congrArg some hname)] at honce
        obtain ⟨rfl, hnone⟩ := List.cons.inj honce
        exact (get_of_fill_none hapart more hnone hk (g draft)).trans (hset g (hname ▸ hg) draft)
      · rw [Members.named, hother, if_neg fun h => hname (Option.some.inj h)] at honce
        refine (get_of_fill hf hapart hset more honce hk (g draft)).trans (congrArg change ?_)
        exact hapart other hname d g hg draft

/-! ## Fields with a part of their own -/

/-- The field fills in one part of the record, which no other field does, with what its document stands for. -/
structure Fills (l : Layout σ) (update : String → Document → Option (σ → σ)) (f : Field σ) (get : σ → β)
    (set : σ → β → σ) (read? : Document → Option β) : Prop where
  mem : f ∈ l.fields
  update_eq : ∀ d, update f.name d = (read? d).map fun b draft => set draft b
  get_set : ∀ draft b, get (set draft b) = b
  apart : Apart update f.name get

namespace Fills

variable {f : Field σ} {get : σ → β} {set : σ → β → σ} {read? : Document → Option β} {absent : Option β}
  {members : Members}

/-- The field is settled if the only document under its name stands for something, or it may be missing and is. -/
theorem settled_iff (h : Fills l update f get set read?) (habsent : absent.isSome ↔ f.presence ≠ .always) :
    Settled update [] f (members.named f.name) ↔ (members.only? f.name absent read?).isSome := by
  rw [Members.only?]
  rcases members.named f.name with _ | ⟨d, _ | ⟨_, _⟩⟩
  · simp [Settled, habsent]
  · simp [Settled, h.update_eq]
  · simp [Settled]

/-- **The part of a record that is read** is what the only document under the name stands for. -/
theorem only?_eq (h : Fills l update f get set read?) {g : σ → σ} (hfill : l.fill update [] members = some g)
    {draft : σ} (habsent : f.presence ≠ .always → absent = some (get draft)) :
    members.only? f.name absent read? = some (get (g draft)) := by
  have hsettled := ((isSome_fill_iff members []).mp (Option.isSome_of_eq_some hfill)).2 f h.mem
  rw [Members.only?]
  rcases hnamed : members.named f.name with _ | ⟨d, _ | ⟨_, _⟩⟩
  · rw [hnamed] at hsettled
    rw [get_of_fill_none h.apart members hnamed hfill]
    exact habsent fun halways => List.not_mem_nil (hsettled halways)
  · rw [hnamed] at hsettled
    obtain ⟨b, hb⟩ := Option.isSome_iff_exists.mp (Option.isSome_map ▸ h.update_eq d ▸ hsettled.2)
    have hset (k : σ → σ) (hk : update f.name d = some k) (draft : σ) :
        get (k draft) = Function.const β b (get draft) := by
      rw [h.update_eq, hb] at hk
      rw [← Option.some.inj hk, h.get_set, Function.const]
    have hget : get (g draft) = b := get_of_fill h.mem h.apart hset members hnamed hfill draft
    rw [hget]
    exact hb
  · rw [hnamed] at hsettled
    exact absurd hsettled id

end Fills

end Layout

end EdaParts.Json
