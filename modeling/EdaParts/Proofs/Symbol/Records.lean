import EdaParts.Proofs.Record.Reading
import EdaParts.Symbol.Record

/-!
# What symbol records place

A line that is not skipped is a record of one kind, and what it places has the form of that kind.

* `SymbolPlacement.record_of_read` : which lines are not skipped; `SymbolPlacement.value_of_record` : a line as a
  record of its kind;
* `SymbolPlacement.rect_eq_ok_iff`, `SymbolPlacement.yields_pin` and the lemmas between and after them : what a record
  of each kind places.
-/

namespace EdaParts

open Reading

theorem SymbolKind.ofTag_eq_ok_iff {tag : String} {kind : SymbolKind} : ofTag tag = .ok kind ↔ kind.tag = tag := by
  constructor
  · intro h
    unfold ofTag at h
    split at h
    · next found hfind =>
      obtain rfl := Except.ok.inj h
      simpa using List.find?_some hfind
    · cases h
  · rintro rfl
    cases kind <;> rfl

namespace SymbolPlacement

variable {frame : Frame} {f : Fields} {p : SymbolPlacement} {line : String}

/-! ## Records of lines -/

theorem record_of_read (h : read frame line = .ok p) :
    ∃ kind fields, Record.ofLine? line = some ⟨SymbolKind.tag kind, fields⟩ ∧
      (ofKind frame kind ⟨kind.tag, fields⟩).Yields p := by
  change (ofLine frame line).Yields p at h
  unfold ofLine at h
  cases hrecord : Record.ofLine? line with
  | none =>
    rw [hrecord] at h
    exact absurd h yields_throw
  | some r =>
    rw [hrecord] at h
    obtain ⟨kind, hkind, h⟩ := yields_bind.mp h
    obtain ⟨tag, fields⟩ := r
    obtain rfl := SymbolKind.ofTag_eq_ok_iff.mp (yields_liftM.mp hkind)
    exact ⟨kind, fields, rfl, h⟩

/-- A line is read as the record that it is. -/
theorem value_of_record (kind : SymbolKind) {fields : List String}
    (hline : Record.ofLine? line = some ⟨kind.tag, fields⟩) :
    read frame line = (ofKind frame kind ⟨kind.tag, fields⟩).run.value := by
  show (ofLine frame line).run.value = _
  unfold ofLine
  rw [hline]
  dsimp only
  rw [SymbolKind.ofTag_eq_ok_iff.mpr rfl]
  rfl

/-! ## Kind by kind -/

/-- The rectangle of a corner and a size. -/
def rectangleOf (frame : Frame) (x y w h : Float) : SymbolPlacement :=
  single (.rectangle (frame.mils ⟨x, y⟩) (frame.mils ⟨x + w, y + h⟩))

theorem rect_eq_ok_iff : rect frame f = .ok p ↔
    ∃ x y w h, f.number 0 = .ok x ∧ f.number 1 = .ok y ∧
      f.number (if f.values.length = 12 then 4 else 2) = .ok w ∧
      f.number (if f.values.length = 12 then 5 else 3) = .ok h ∧ rectangleOf frame x y w h = p := by
  unfold rect
  simp only [bind_eq_ok_iff]
  constructor
  · rintro ⟨x, hx, y, hy, w, hw, h, hh, hp⟩
    exact ⟨x, y, w, h, hx, hy, hw, hh, Except.ok.inj hp⟩
  · rintro ⟨x, y, w, h, hx, hy, hw, hh, rfl⟩
    exact ⟨x, hx, y, hy, w, hw, h, hh, rfl⟩

theorem ellipse_eq_ok (h : ellipse frame f = .ok p) :
    ∃ x y radius, f.number 0 = .ok x ∧ f.number 1 = .ok y ∧ f.number 2 = .ok radius ∧
      p = single (.circle (frame.mils ⟨x, y⟩) (frame.milLength radius)) := by
  obtain ⟨x, hx, h⟩ := bind_eq_ok_iff.mp h
  obtain ⟨y, hy, h⟩ := bind_eq_ok_iff.mp h
  obtain ⟨radius, hradius, h⟩ := bind_eq_ok_iff.mp h
  exact ⟨x, y, radius, hx, hy, hradius, (Except.ok.inj h).symm⟩

/-- A pin has the texts of its type, its number, its angle and its name, and is wired on the side that its angle
names. -/
theorem yields_pin (h : (pin frame f).Yields p) :
    ∃ code number x y angle name elements drawn, f.text 1 = .ok code ∧ f.text 2 = .ok number ∧ f.number 3 = .ok x ∧
      f.number 4 = .ok y ∧ f.text 5 = .ok angle ∧ f.text 13 = .ok name ∧
      drawn.name = Text.substitute ' ' ['_'] name ∧ drawn.number = number ∧ drawn.position = frame.mils ⟨x, y⟩ ∧
      drawn.length = Binary64.truncated (totalLength elements * pinLengthScale) ∧
      p = ⟨[.pin drawn], (PinOrientation.ofAngle? angle).map Prod.snd⟩ := by
  unfold pin at h
  obtain ⟨code, hcode, h⟩ := yields_bind.mp h
  obtain ⟨number, hnumber, h⟩ := yields_bind.mp h
  obtain ⟨x, hx, h⟩ := yields_bind.mp h
  obtain ⟨y, hy, h⟩ := yields_bind.mp h
  obtain ⟨angle, hangle, h⟩ := yields_bind.mp h
  obtain ⟨stub, -, h⟩ := yields_bind.mp h
  obtain ⟨elements, -, h⟩ := yields_bind.mp h
  obtain ⟨name, hname, h⟩ := yields_bind.mp h
  refine ⟨code, number, x, y, angle, name, elements, ?_⟩
  split at h
  · next orientation side hknown =>
    obtain ⟨-, -, h⟩ := yields_bind.mp h
    obtain rfl := yields_pure.mp h
    exact ⟨_, hcode, hnumber, hx, hy, hangle, hname, rfl, rfl, rfl, rfl, by rw [hknown]; rfl⟩
  · next hunknown =>
    obtain ⟨-, -, h⟩ := yields_bind.mp h
    obtain ⟨-, -, h⟩ := yields_bind.mp h
    obtain rfl := yields_pure.mp h
    exact ⟨_, hcode, hnumber, hx, hy, hangle, hname, rfl, rfl, rfl, rfl, by rw [hunknown]; rfl⟩

theorem text_eq_ok (h : text frame f = .ok p) :
    ∃ degrees x y size shown hidden, f.number 3 = .ok degrees ∧ f.number 1 = .ok x ∧ f.number 2 = .ok y ∧
      textSize f = .ok size ∧ f.text 6 = .ok shown ∧
      p = single (.text shown (frame.mils ⟨x, y⟩) (textAngle degrees).value size hidden) := by
  obtain ⟨degrees, hdegrees, h⟩ := bind_eq_ok_iff.mp h
  obtain ⟨x, hx, h⟩ := bind_eq_ok_iff.mp h
  obtain ⟨y, hy, h⟩ := bind_eq_ok_iff.mp h
  obtain ⟨size, hsize, h⟩ := bind_eq_ok_iff.mp h
  obtain ⟨shown, hshown, h⟩ := bind_eq_ok_iff.mp h
  exact ⟨degrees, x, y, size, shown, _, hdegrees, hx, hy, hsize, hshown, (Except.ok.inj h).symm⟩

theorem polyline_eq_ok (h : polyline frame f = .ok p) :
    ∃ points, vertices frame f = .ok points ∧ p = single (.polyline points false) := by
  obtain ⟨points, hpoints, h⟩ := bind_eq_ok_iff.mp h
  exact ⟨points, hpoints, (Except.ok.inj h).symm⟩

theorem polygon_eq_ok (h : polygon frame f = .ok p) :
    ∃ points, vertices frame f = .ok points ∧ p = single (.polyline (points ++ points.take 1) true) := by
  obtain ⟨points, hpoints, h⟩ := bind_eq_ok_iff.mp h
  exact ⟨points, hpoints, (Except.ok.inj h).symm⟩

/-- A path draws something, element by element or run by run. -/
theorem yields_path (h : (path frame f).Yields p) :
    ∃ text es, f.text 0 = .ok text ∧ Element.ofPath text = .ok es ∧ es.countP (!·.isMove) ≠ 0 ∧
      p = ⟨if es.countP (!·.isMove) - es.countP (·.isCurve) < es.countP (·.isCurve) then curves frame es
        else polylines frame es, none⟩ := by
  unfold path at h
  obtain ⟨text, htext, h⟩ := yields_bind.mp h
  obtain ⟨es, hes, h⟩ := yields_bind.mp h
  refine ⟨text, es, yields_liftM.mp htext, mapError_eq_ok_iff.mp (yields_liftM.mp hes), ?_⟩
  dsimp only at h
  split at h
  · obtain ⟨-, h, -⟩ := yields_bind.mp h
    exact absurd h yields_throw
  · next hdrawn =>
    refine ⟨hdrawn, ?_⟩
    split at h
    · next hcurved =>
      rw [if_pos hcurved]
      exact (yields_pure.mp h).symm
    · next hstraight =>
      obtain ⟨-, -, h⟩ := yields_bind.mp h
      rw [if_neg hstraight]
      exact (yields_pure.mp h).symm

theorem arc_eq_ok (h : arc frame f = .ok p) :
    ∃ text es a, f.text 0 = .ok text ∧ Element.ofPath text = .ok es ∧ es.findSome? arc? = some a ∧
      p = single (arcGraphic frame a) := by
  obtain ⟨text, htext, h⟩ := bind_eq_ok_iff.mp h
  obtain ⟨es, hes, h⟩ := bind_eq_ok_iff.mp h
  refine ⟨text, es, ?_⟩
  split at h
  · next a hfind => exact ⟨a, htext, mapError_eq_ok_iff.mp hes, hfind, (Except.ok.inj h).symm⟩
  · nomatch h

end SymbolPlacement

end EdaParts
