import EdaParts.Footprint.Basic
import EdaParts.Legacy.Line

/-!
# Footprints as lines

A footprint is a library file of one module, in millimetres. Rectangles are drawn as four lines, and
custom pads as the rectangle of their size, since the format has neither.
-/

namespace EdaParts.Legacy

open Word

def boardCoordinates (p : Point) : Line := [number p.x, number p.y]

/-- The letter for the shape of a pad. -/
def padShape : PadShape → String
  | .circle => "C"
  | .rect | .custom => "R"
  | .oval => "O"

/-- The hole of a pad; none is a hole of no size. -/
def drill : Option Drill → Line
  | some (.round d) => [bare "Dr", number d, bare "0", bare "0"]
  | some (.slot w h) =>
    [bare "Dr", number w, bare "0", bare "0", bare "O", number w, number h]
  | none => bareWords ["Dr", "0", "0", "0"]

/-- A mask of 32 bits as eight hexadecimal digits. -/
def maskText (mask : Nat) : String :=
  let digits := (Nat.toDigits 16 mask).map Char.toUpper
  String.ofList (List.replicate (8 - digits.length) '0' ++ digits)

/-- The set of layers as a mask. -/
def layerMask (layers : List Layer) : Nat :=
  layers.foldl (fun mask l => mask ||| l.mask) 0

/-- The word for how a pad or a part is mounted. -/
def mounting : Mounting → String
  | .surface => "SMD"
  | .throughHole => "STD"

def pad (p : Pad) : List Line :=
  [bareWords ["$PAD"],
   [bare "Sh", quoted p.number, bare (padShape p.shape), number p.size.x, number p.size.y,
    bare "0", bare "0", tenths p.rotation],
   drill p.drill,
   [bare "At", bare (mounting p.mounting), bare "N", bare (maskText (layerMask p.layers))],
   [bare "Ne", bare "0", quoted ""],
   bare "Po" :: boardCoordinates p.position,
   bareWords ["$EndPAD"]]

def segment (start stop : Point) (width : Float) (l : Layer) : Line :=
  bare "DS" :: boardCoordinates start ++ boardCoordinates stop ++ [number width, integer l.number]

def primitive : Primitive → List Line
  | .line start stop width l => [segment start stop width l]
  | .rect start stop width l =>
    [segment start ⟨stop.x, start.y⟩ width l, segment ⟨stop.x, start.y⟩ stop width l,
     segment stop ⟨start.x, stop.y⟩ width l, segment ⟨start.x, stop.y⟩ start width l]
  | .circle center radius width l =>
    [bare "DC" :: boardCoordinates center ++ boardCoordinates ⟨center.x + radius, center.y⟩ ++
      [number width, integer l.number]]
  | .arc center start _ _ angle width l =>
    [bare "DA" :: boardCoordinates center ++ boardCoordinates start ++
      [tenths angle, number width, integer l.number]]
  | .pad p => pad p

def textRole : TextRole → String
  | .reference => "T0"
  | .value => "T1"
  | .user => "T2"

def boardText (t : BoardText) : Line :=
  bare (textRole t.role) :: boardCoordinates t.position ++
    [bare "1", bare "1", bare "0", bare "0.15", bare "N", bare "V", integer t.layer.number,
     bare "N", quoted t.text]

/-- Millimetres in the inch that offsets of models are given in. -/
def millimetresPerInch : Float := 25.4

def model : Option ModelRef → List Line
  | some m =>
    [bareWords ["$SHAPE3D"], [bare "Na", quoted m.path], bareWords ["Sc", "1", "1", "1"],
     [bare "Of", number (m.offset.x / millimetresPerInch), number (m.offset.y / millimetresPerInch),
      number (m.offset.z / millimetresPerInch)],
     [bare "Ro", number m.rotation.x, number m.rotation.y, number m.rotation.z],
     bareWords ["$EndSHAPE3D"]]
  | none => []

/-- How a part is assembled, if that is known. -/
def assembly : Option Mounting → List Line
  | some m => [[bare "At", bare (mounting m)]]
  | none => []

def footprint (f : Footprint) : List Line :=
  [bareWords ["PCBNEW-LibModule-V1"], bareWords ["#", "encoding", "utf-8"],
   bareWords ["Units", "mm"], bareWords ["$INDEX"], [bare f.name], bareWords ["$EndINDEX"],
   [bare "$MODULE", bare f.name],
   bareWords ["Po", "0", "0", "0", "15", "00000000", "00000000", "~~"], [bare "Li", bare f.name],
   [bare "Cd", bare f.description], bareWords ["Sc", "0"], bareWords ["Op", "0", "0", "0"]] ++
  assembly f.assembly ++ f.texts.map boardText ++ f.primitives.flatMap primitive ++
  model f.model ++ [[bare "$EndMODULE", bare f.name], bareWords ["$EndLIBRARY"]]

def footprintFile (f : Footprint) : String := print (footprint f)

end EdaParts.Legacy
