import EdaParts.Proofs.Component.Skipping
import EdaParts.Proofs.Footprint.Mounting

/-!
# Models apart from drawings

A resolver decides which model a footprint has, and nothing else about it: which records are skipped, what they
draw, how far the drawing is moved and all of the file but the part of the model are the same with every resolver
and without one. The model is that of the last record that the resolver answers.

* `Placement.value_modelNode` : what a model record places;
* `Placement.read_withoutModel` : what a line places but for its model; `Placement.model_read` : its model;
* `Board.withoutModel_placeRead`, `Board.model_placeRead` : what one line does to a board;
  `Board.withoutModel_ofLines`, `Board.model_ofLines` : what all of them do;
* `Footprint.exists_render_withModel` : where a model is written;
* `Component.model_apart_from_drawing` : two generations with different resolvers, and the model of each.
-/

namespace EdaParts

open Reading

/-! ## One record -/

namespace Placement

variable {frame : Frame} {r : Option Resolver} {c : FootprintContext} {f : Fields} {p : Placement} {line : String}

def withoutModel (p : Placement) : Placement :=
  { p with model := none }

/-- The line is the record of a model. -/
def isModel (line : String) : Bool :=
  (Record.ofLine? line).any fun r => r.tag = FootprintKind.svgNode.tag

/-- The attributes of the record of a model, if its document can be read. -/
def nodeOf? (line : String) : Option ModelNode :=
  (Record.ofLine? line).bind fun r =>
    if r.tag = FootprintKind.svgNode.tag then r.fields[0]?.bind fun text => (ModelNode.read text).toOption else none

/-- What the resolver answers to a line. -/
def answer? (c : FootprintContext) (line : String) : Option ModelRef :=
  (nodeOf? line).bind fun node => c.resolver.bind fun resolve => resolve node.identifier (node.placement c.frame)

/-- A model record is skipped for its document alone, and places what the resolver answers. -/
theorem value_modelNode (c : FootprintContext) (f : Fields) :
    (modelNode c f).run.value = (f.text 0).bind fun text =>
      match ModelNode.read text with
      | .error e => .error (.badDocument "SVGNODE" e)
      | .ok node => .ok ⟨[], [], c.resolver.bind fun resolve => resolve node.identifier (node.placement c.frame)⟩ := by
  unfold modelNode
  cases f.text 0 with
  | error skip => rfl
  | ok text =>
    simp only [Except.bind]
    show (ExceptT.run (match ModelNode.read text with
      | .error e => throw (.badDocument "SVGNODE" e)
      | .ok node => _ : Reading Placement)).value = _
    cases ModelNode.read text with
    | error e => rfl
    | ok node =>
      dsimp only
      split <;> rfl

/-- Records of other kinds do not ask the resolver. -/
theorem ofKind_withoutResolver {kind : FootprintKind} (hkind : kind ≠ .svgNode) :
    ofKind ⟨frame, r⟩ kind f = ofKind ⟨frame, none⟩ kind f := by
  cases kind with
  | svgNode => exact absurd rfl hkind
  | _ => rfl

theorem model_eq_none {kind : FootprintKind} (hkind : kind ≠ .svgNode) (h : (ofKind c kind f).Yields p) :
    p.model = none := by
  cases kind with
  | track =>
    obtain ⟨width, layer, vertices, -, -, rfl⟩ := yields_track h
    rfl
  | pad =>
    obtain ⟨drawn, -, rfl⟩ := yields_pad h
    rfl
  | arc =>
    obtain ⟨width, path, e, a, rest, layer, -, -, -, rfl⟩ := yields_arc h
    rfl
  | circle =>
    obtain ⟨x, y, radius, width, layer, -, -, -, -, rfl⟩ := yields_circle h
    rfl
  | rect =>
    obtain ⟨x, y, width, height, layer, -, -, -, -, rfl⟩ := yields_rect h
    rfl
  | svgNode => exact absurd rfl hkind
  | solidRegion => exact absurd h yields_throw
  | via => exact absurd h not_yields_via

theorem read_eq (c : FootprintContext) (line : String) :
    read c line =
      match Record.ofLine? line with
      | none => .error (.unknownKind "")
      | some record =>
        match FootprintKind.ofTag record.tag with
        | .error skip => .error skip
        | .ok kind => (ofKind c kind ⟨kind.tag, record.fields⟩).run.value := by
  unfold read ofLine
  cases Record.ofLine? line with
  | none => rfl
  | some record =>
    dsimp only
    cases FootprintKind.ofTag record.tag <;> rfl

/-- **What a line places but for its model** is what it places without a resolver. -/
theorem read_withoutModel (frame : Frame) (r : Option Resolver) (line : String) :
    (read ⟨frame, r⟩ line).map withoutModel = read ⟨frame, none⟩ line := by
  rw [read_eq, read_eq]
  cases Record.ofLine? line with
  | none => rfl
  | some record =>
    dsimp only
    cases FootprintKind.ofTag record.tag with
    | error skip => rfl
    | ok kind =>
      dsimp only
      by_cases hkind : kind = .svgNode
      · subst hkind
        show (modelNode _ _).run.value.map _ = (modelNode _ _).run.value
        rw [value_modelNode, value_modelNode]
        cases Fields.text ⟨_, record.fields⟩ 0 with
        | error skip => rfl
        | ok text =>
          simp only [Except.bind]
          cases ModelNode.read text <;> rfl
      · rw [ofKind_withoutResolver hkind]
        cases hread : (ofKind ⟨frame, none⟩ kind ⟨kind.tag, record.fields⟩).run.value with
        | error skip => rfl
        | ok p =>
          have hmodel : p.model = none := model_eq_none hkind hread
          have hsame : p.withoutModel = p := by rw [withoutModel, ← hmodel]
          exact congrArg Except.ok hsame

/-- **The model that a line places** is the answer to it, and the documents that can be read are those of the model
records that are not skipped. -/
theorem model_read (c : FootprintContext) (line : String) :
    (read c line).toOption.bind Placement.model = answer? c line ∧
      (nodeOf? line).isSome = (isModel line && (read c line).isOk) := by
  unfold answer? nodeOf? isModel
  rw [read_eq]
  cases Record.ofLine? line with
  | none => exact ⟨rfl, rfl⟩
  | some record =>
    simp only [Option.bind_some, Option.any_some]
    cases htag : FootprintKind.ofTag record.tag with
    | error skip =>
      have hother : record.tag ≠ FootprintKind.svgNode.tag := fun h => by
        rw [h, FootprintKind.ofTag_eq_ok_iff.mpr rfl] at htag
        cases htag
      rw [if_neg hother, decide_eq_false hother]
      exact ⟨rfl, rfl⟩
    | ok kind =>
      dsimp only
      rw [← FootprintKind.ofTag_eq_ok_iff.mp htag]
      by_cases hkind : kind = .svgNode
      · subst hkind
        rw [if_pos rfl]
        show (modelNode _ _).run.value.toOption.bind _ = _ ∧ _ = (_ && (modelNode _ _).run.value.isOk)
        rw [value_modelNode]
        unfold Fields.text Fields.get?
        cases record.fields[0]? with
        | none => exact ⟨rfl, rfl⟩
        | some text =>
          simp only [Except.bind, Option.bind_some]
          cases ModelNode.read text <;> exact ⟨rfl, rfl⟩
      · have hother : kind.tag ≠ FootprintKind.svgNode.tag := fun h => hkind <|
          Except.ok.inj ((FootprintKind.ofTag_eq_ok_iff.mpr h).symm.trans (FootprintKind.ofTag_eq_ok_iff.mpr rfl))
        rw [if_neg hother, decide_eq_false hother]
        refine ⟨?_, rfl⟩
        cases hread : (ofKind c kind ⟨kind.tag, record.fields⟩).run.value with
        | error skip => rfl
        | ok p => exact model_eq_none hkind hread

end Placement

/-! ## All lines -/

namespace Board

open Placement (answer? isModel nodeOf?)

variable {frame : Frame} {r : Option Resolver}

def withoutModel (b : Board) : Board :=
  { b with model := none }

theorem withoutModel_placeRead (b : Board) (x : Except Skip Placement) :
    (b.placeRead x).withoutModel = b.withoutModel.placeRead (x.map Placement.withoutModel) := by
  cases x <;> rfl

/-- A line that is not answered leaves the model as it was. -/
theorem model_placeRead (c : FootprintContext) (b : Board) (line : String) :
    (b.placeRead (Placement.read c line)).model = (answer? c line).or b.model := by
  rw [← (Placement.model_read c line).1]
  cases Placement.read c line <;> rfl

/-- **What lines draw but for the model** is what they draw without a resolver. -/
theorem withoutModel_ofLines (frame : Frame) (r : Option Resolver) (lines : List String) :
    (ofLines ⟨frame, r⟩ lines).value.withoutModel = (ofLines ⟨frame, none⟩ lines).value := by
  rw [value_ofLines, value_ofLines]
  show _ = (lines.map (Placement.read ⟨frame, none⟩)).foldl placeRead empty.withoutModel
  generalize empty = b
  induction lines generalizing b with
  | nil => rfl
  | cons line lines ih =>
    rw [List.map_cons, List.foldl_cons, ih, withoutModel_placeRead, Placement.read_withoutModel]
    rfl

theorem model_foldl_placeRead (c : FootprintContext) (lines : List String) (b : Board) :
    ((lines.map (Placement.read c)).foldl placeRead b).model =
      (lines.reverse.findSome? (answer? c)).or b.model := by
  induction lines generalizing b with
  | nil => rfl
  | cons line lines ih =>
    rw [List.map_cons, List.foldl_cons, ih, model_placeRead, List.reverse_cons, List.findSome?_append,
      List.findSome?_singleton, Option.or_assoc]

/-- **The model of a board** is the last answer to its lines. -/
theorem model_ofLines (c : FootprintContext) (lines : List String) :
    (ofLines c lines).value.model = lines.reverse.findSome? (answer? c) := by
  rw [value_ofLines, model_foldl_placeRead]
  exact Option.or_none

/-- Lines after the one that is answered last do not clear its model. -/
theorem model_ofLines_eq_some_iff {c : FootprintContext} {lines : List String} {m : ModelRef} :
    (ofLines c lines).value.model = some m ↔ ∃ before line after, lines = before ++ line :: after ∧
      answer? c line = some m ∧ ∀ later ∈ after, answer? c later = none := by
  rw [model_ofLines, List.findSome?_eq_some_iff]
  constructor
  · rintro ⟨after, line, before, hlines, hanswer, hafter⟩
    refine ⟨before.reverse, line, after.reverse, ?_, hanswer, fun later hlater => ?_⟩
    · rw [← lines.reverse_reverse, hlines]
      simp
    · exact hafter later (List.mem_reverse.mp hlater)
  · rintro ⟨before, line, after, rfl, hanswer, hafter⟩
    exact ⟨after.reverse, line, before.reverse, by simp, hanswer, fun later hlater =>
      hafter later (List.mem_reverse.mp hlater)⟩

/-- A finished board but for its model is finished without a resolver. -/
theorem finish_ofLines (frame : Frame) (r : Option Resolver) (lines : List String) (name : String) :
    (ofLines ⟨frame, r⟩ lines).value.finish name =
      { (ofLines ⟨frame, none⟩ lines).value.finish name with
        model := (ofLines ⟨frame, r⟩ lines).value.model.map
          (moveModel (ofLines ⟨frame, none⟩ lines).value.box.center) } := by
  rw [← withoutModel_ofLines frame r]
  rfl

end Board

/-! ## Files -/

theorem Modern.Expr.printBody_append (depth : Nat) (es fs : List Modern.Expr) :
    Modern.Expr.printBody depth (es ++ fs) = Modern.Expr.printBody depth es ++ Modern.Expr.printBody depth fs := by
  induction es with
  | nil => exact String.empty_append.symm
  | cons e es ih =>
    rw [List.cons_append, Modern.Expr.printBody, Modern.Expr.printBody, ih, String.append_assoc, String.append_assoc,
      String.append_assoc]

theorem Legacy.print_append (ls ks : List Legacy.Line) :
    Legacy.print (ls ++ ks) = Legacy.print ls ++ Legacy.print ks := by
  rw [← String.toList_inj, Legacy.toList_print_append, String.toList_append]

namespace Footprint

/-- The same but for their models. -/
structure DrawnAlike (f g : Footprint) : Prop where
  name : g.name = f.name
  description : g.description = f.description
  primitives : g.primitives = f.primitives
  texts : g.texts = f.texts
  assembly : g.assembly = f.assembly

theorem drawnAlike_withModel (f : Footprint) (m n : Option ModelRef) :
    ({ f with model := m } : Footprint).DrawnAlike { f with model := n } :=
  ⟨rfl, rfl, rfl, rfl, rfl⟩

/-- The part of a file that tells the model, if there is one. -/
def modelPart (m : Option ModelRef) : Schema → String
  | .legacy => Legacy.print (Legacy.model m)
  | .modern => Modern.Expr.printBody 1 (Modern.model m)

end Footprint

namespace Legacy

/-- The lines of a footprint before its model. -/
def linesBeforeModel (f : Footprint) : List Line :=
  heading f ++ assembly f.assembly ++ f.texts.map boardText ++ f.primitives.flatMap primitive

theorem footprint_withModel (f : Footprint) (m : Option ModelRef) :
    footprint { f with model := m } = linesBeforeModel f ++ model m ++ moduleEnd f := rfl

end Legacy

namespace Modern

/-- The items of a footprint before its model. -/
def itemsBeforeModel (f : Footprint) : List Expr :=
  .list "descr" [.quoted f.description] :: assembly f.assembly ++ f.texts.map boardText ++ f.primitives.map primitive

theorem footprint_withModel (f : Footprint) (m : Option ModelRef) :
    footprint { f with model := m } =
      .block "footprint" [.quoted f.name, version, generator, layer .frontCopper]
        (itemsBeforeModel f ++ model m) := rfl

end Modern

namespace Footprint

/-- Whatever the model is, the same text stands before its part of the file and behind it. -/
theorem exists_render_withModel (f : Footprint) (schema : Schema) :
    ∃ before after, ∀ m, ({ f with model := m } : Footprint).render schema =
      before ++ modelPart m schema ++ after := by
  cases schema with
  | legacy =>
    refine ⟨Legacy.print (Legacy.linesBeforeModel f), Legacy.print (Legacy.moduleEnd f), fun m => ?_⟩
    rw [render, Legacy.footprintFile, Legacy.footprint_withModel, Legacy.print_append, Legacy.print_append, modelPart]
  | modern =>
    refine ⟨"(" ++ "footprint" ++ Modern.Expr.printInline 0 [.quoted f.name, Modern.version, Modern.generator,
      Modern.layer .frontCopper] ++ Modern.Expr.printBody 1 (Modern.itemsBeforeModel f),
      Modern.newline 0 ++ ")" ++ "\n", fun m => ?_⟩
    rw [render, Modern.footprintFile, Modern.footprint_withModel, Modern.Expr.print, Modern.Expr.printBody_append,
      modelPart]
    simp only [String.append_assoc]

end Footprint

/-! ## Generations -/

namespace Component

open Placement (answer? isModel nodeOf?)

/-- Two generations with different resolvers fail alike, for the options or for lack of records or of a name, or
draw the same but for the models, which are moved alike and stand in one place of the files. -/
def GeneratedAlike (c : Component) (o : Options) (r r' : Option Resolver) : Prop :=
  ((¬ o.Valid ∨ c.footprint = none ∨ Text.isBlankText c.info.footprintName = true) ∧
    ∃ e, (c.generateFootprint o r).run.value = .error e ∧ (c.generateFootprint o r').run.value = .error e) ∨
  ∃ source f g center before after, c.footprint = some source ∧
    (c.toFootprint r).run.value = .ok f ∧ (c.toFootprint r').run.value = .ok g ∧ f.DrawnAlike g ∧
    f.model = (Board.ofLines ⟨.board source.origin, r⟩ source.shapes).value.model.map (Board.moveModel center) ∧
    g.model = (Board.ofLines ⟨.board source.origin, r'⟩ source.shapes).value.model.map (Board.moveModel center) ∧
    (c.generateFootprint o r).run.value = .ok (before ++ Footprint.modelPart f.model o.schema ++ after) ∧
    (c.generateFootprint o r').run.value = .ok (before ++ Footprint.modelPart g.model o.schema ++ after)

theorem generatedAlike (c : Component) (o : Options) (r r' : Option Resolver) : c.GeneratedAlike o r r' := by
  unfold GeneratedAlike
  rw [value_toFootprint, value_toFootprint, value_generateFootprint, value_generateFootprint]
  cases hvalid : o.validate with
  | error e =>
    have hinvalid : ¬ o.Valid := fun h => by
      rw [Options.validate_eq_ok_iff.mpr h] at hvalid
      cases hvalid
    exact .inl ⟨.inl hinvalid, e, rfl, rfl⟩
  | ok u =>
    cases c.footprint with
    | none => exact .inl ⟨.inr (.inl rfl), _, rfl, rfl⟩
    | some source =>
      by_cases hname : Text.isBlankText c.info.footprintName = true
      · simp only [hname, if_true]
        exact .inl ⟨.inr (.inr trivial), _, rfl, rfl⟩
      · simp only [if_neg hname]
        rw [Board.finish_ofLines _ r, Board.finish_ofLines _ r']
        -- Both footprints are that without a resolver, with a model put in.
        generalize (Board.ofLines ⟨.board source.origin, none⟩ source.shapes).value.finish c.info.footprintName = bare
        generalize (Board.ofLines ⟨.board source.origin, none⟩ source.shapes).value.box.center = center
        obtain ⟨before, after, hrender⟩ := bare.exists_render_withModel o.schema
        exact .inr ⟨source, _, _, center, before, after, rfl, rfl, rfl, bare.drawnAlike_withModel _ _, rfl, rfl,
          congrArg Except.ok (hrender _), congrArg Except.ok (hrender _)⟩

/-- **The model stands apart from the drawing.** Two generations with any resolvers, or without one, fail alike or
draw the same, and their files differ in the part of the model alone. Which model records are skipped does not
depend on the resolver; the model is that of the last record that it answers, whatever comes after it. -/
theorem model_apart_from_drawing (c : Component) (o : Options) (r r' : Option Resolver) :
    c.GeneratedAlike o r r' ∧
    ∀ context lines,
      (∀ line, (nodeOf? line).isSome = (isModel line && Board.accepts context line)) ∧
      ∀ m, (Board.ofLines context lines).value.model = some m ↔
        ∃ before line after, lines = before ++ line :: after ∧ answer? context line = some m ∧
          ∀ later ∈ after, answer? context later = none :=
  ⟨generatedAlike c o r r', fun context _ =>
    ⟨fun line => (Placement.model_read context line).2, fun _ => Board.model_ofLines_eq_some_iff⟩⟩

/-- The record of a model that goes by an identifier. -/
def modelLine (identifier : String) : String :=
  "SVGNODE~\x7b\"attrs\":\x7b\"uuid\":\"" ++ identifier ++ "\"\x7d\x7d"

def usbModel : ModelRef := ⟨"usb.wrl", ⟨0, 0, 0⟩, ⟨0, 0, 0⟩⟩

/-- A resolver that answers one identifier. -/
def onlyUsb : Resolver := fun identifier _ => if identifier = "usb" then some usbModel else none

theorem answer?_onlyUsb (frame : Frame) (line : String) : answer? ⟨frame, some onlyUsb⟩ line =
    if (nodeOf? line).map ModelNode.identifier = some "usb" then some usbModel else none := by
  unfold answer?
  cases nodeOf? line <;> simp [onlyUsb]

/-- The records of three models with a track among them. -/
def plugLines : List String :=
  [modelLine "plug", modelLine "usb", "TRACK~1~1~10 20 30 40", modelLine "pin"]

def plugged : Component :=
  ⟨{ footprintName := "USB" }, none, some ⟨plugLines, .zero⟩⟩

/-- The model that is answered stays, although a later record asks for one that is not; without a resolver its part
of the file is missing and the rest is the same. -/
theorem model_apart_from_drawing_usb :
    ∃ m before after, m.path = "usb.wrl" ∧
      (plugged.generateFootprint {} none).run.value = .ok (before ++ after) ∧
      (plugged.generateFootprint {} (some onlyUsb)).run.value =
        .ok (before ++ Footprint.modelPart (some m) .modern ++ after) := by
  obtain ⟨hgenerated, hmodel⟩ := model_apart_from_drawing plugged {} none (some onlyUsb)
  have hvalid : ({} : Options).Valid := Options.validate_eq_ok_iff.mp Options.validate_default
  have hlast : (Board.ofLines ⟨.board .zero, some onlyUsb⟩ plugLines).value.model = some usbModel := by
    refine ((hmodel _ _).2 _).mpr ⟨[modelLine "plug"], modelLine "usb",
      ["TRACK~1~1~10 20 30 40", modelLine "pin"], rfl, ?_, ?_⟩
    · rw [answer?_onlyUsb, if_pos (by decide)]
    · rw [List.forall_mem_cons, List.forall_mem_singleton, answer?_onlyUsb, answer?_onlyUsb,
        if_neg (by decide), if_neg (by decide)]
      exact ⟨rfl, rfl⟩
  rcases hgenerated with ⟨hrefused, -⟩ | ⟨source, f, g, center, before, after, hsource, -, -, -, hf, hg, hbare, hfull⟩
  · rcases hrefused with hinvalid | hnone | hblank
    · exact absurd hvalid hinvalid
    · cases hnone
    · exact absurd hblank (by decide)
  · obtain rfl := Option.some.inj hsource
    have hnone : f.model = none := by
      rw [hf, Board.model_ofLines, Option.map_eq_none_iff, List.findSome?_eq_none_iff]
      intro line _
      unfold answer?
      cases nodeOf? line <;> rfl
    have hsome : g.model = some (Board.moveModel center usbModel) := by
      rw [hg]
      exact congrArg (Option.map (Board.moveModel center)) hlast
    refine ⟨Board.moveModel center usbModel, before, after, rfl, ?_, ?_⟩
    · rw [hbare, hnone]
      exact congrArg Except.ok (congrArg (· ++ after) String.append_empty)
    · rw [hfull, hsome]

end Component

end EdaParts
