import EdaParts.Footprint.Basic
import EdaParts.Modern.Expr

/-!
# Footprints as nested expressions

A footprint is one expression of its texts, its primitives in order, and its model.
-/

namespace EdaParts.Modern

open Modern.Expr

def boardCoordinates (p : Point) : List Expr :=
  [number p.x, number p.y]

/-- A line of some width. -/
def stroke (width : Float) : Expr :=
  list "stroke" [list "width" [number width], list "type" [atom "solid"]]

def layer (l : Layer) : Expr :=
  list "layer" [quoted l.name]

def padShape : PadShape → String
  | .circle => "circle"
  | .rect => "rect"
  | .oval => "oval"
  | .custom => "custom"

/-- The word for how a pad is mounted. -/
def padMounting : Mounting → String
  | .surface => "smd"
  | .throughHole => "thru_hole"

/-- The hole of a pad, if it has one. -/
def drill : Option Drill → List Expr
  | some (.round d) => [list "drill" [number d]]
  | some (.slot w h) => [list "drill" [atom "oval", number w, number h]]
  | none => []

/-- The outline of a custom pad, in lines of its own. -/
def padOutline (points : List Point) : List Expr :=
  [list "options" [list "clearance" [atom "outline"], list "anchor" [atom "circle"]],
   block "primitives" []
    [list "gr_poly"
      [list "pts" (points.map fun p => list "xy" (boardCoordinates p)),
       list "width" [atom "0.1"], list "fill" [atom "yes"]]]]

def pad (p : Pad) : Expr :=
  let items :=
    [quoted p.number, atom (padMounting p.mounting), atom (padShape p.shape),
     list "at" (boardCoordinates p.position ++ [number p.rotation]),
     list "size" [number p.size.x, number p.size.y]] ++
    drill p.drill ++ [list "layers" (p.layers.map fun l => quoted l.name)]
  if p.shape = .custom && !p.outline.isEmpty then block "pad" items (padOutline p.outline)
  else list "pad" items

def primitive : Primitive → Expr
  | .line start stop width l =>
    list "fp_line"
      [list "start" (boardCoordinates start), list "end" (boardCoordinates stop), stroke width,
       layer l]
  | .arc _ start mid stop _ width l =>
    list "fp_arc"
      [list "start" (boardCoordinates start), list "mid" (boardCoordinates mid),
       list "end" (boardCoordinates stop), stroke width, layer l]
  | .circle center radius width l =>
    list "fp_circle"
      [list "center" (boardCoordinates center),
       list "end" (boardCoordinates ⟨center.x + radius, center.y⟩), stroke width,
       list "fill" [atom "none"], layer l]
  | .rect start stop width l =>
    list "fp_rect"
      [list "start" (boardCoordinates start), list "end" (boardCoordinates stop), stroke width,
       list "fill" [atom "none"], layer l]
  | .pad p => pad p

def textRole : TextRole → String
  | .reference => "reference"
  | .value => "value"
  | .user => "user"

def boardText (t : BoardText) : Expr :=
  list "fp_text"
    [atom (textRole t.role), quoted t.text, list "at" (boardCoordinates t.position),
     layer t.layer,
     list "effects"
      [list "font"
        [list "size" [atom "1", atom "1"], list "thickness" [atom "0.15"]]]]

/-- How a part is assembled, if that is known. -/
def assembly : Option Mounting → List Expr
  | some .surface => [list "attr" [atom "smd"]]
  | some .throughHole => [list "attr" [atom "through_hole"]]
  | none => []

/-- Three numbers. -/
def triple (head : String) (t : Triple) : Expr :=
  list head [list "xyz" [number t.x, number t.y, number t.z]]

def model : Option ModelRef → List Expr
  | some m =>
    [block "model" [quoted m.path]
      [triple "offset" m.offset, list "scale" [list "xyz" [atom "1", atom "1", atom "1"]],
       triple "rotate" m.rotation]]
  | none => []

def footprint (f : Footprint) : Expr :=
  block "footprint"
    [quoted f.name, version, generator, layer .frontCopper]
    (list "descr" [quoted f.description] ::
      assembly f.assembly ++ f.texts.map boardText ++ f.primitives.map primitive ++ model f.model)

def footprintFile (f : Footprint) : String :=
  (footprint f).print 0 ++ "\n"

end EdaParts.Modern
