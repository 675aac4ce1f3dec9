import EdaParts.Text.Blank

/-!
# Board layers

The layers that footprints draw on, with their names, their numbers in the legacy format, and the
codes by which vendor documents refer to them. The last two stand for all copper layers and both
mask layers at once, and occur on drilled pads alone.
-/

namespace EdaParts

/-- A layer of the board. -/
inductive Layer where
  | frontCopper
  | backCopper
  | frontSilk
  | backSilk
  | frontPaste
  | backPaste
  | frontMask
  | backMask
  | drawings
  | edgeCuts
  | frontFab
  | frontCourtyard
  | allCopper
  | allMask
  deriving Repr, DecidableEq

namespace Layer

def all : List Layer :=
  [frontCopper, backCopper, frontSilk, backSilk, frontPaste, backPaste, frontMask, backMask,
    drawings, edgeCuts, frontFab, frontCourtyard, allCopper, allMask]

/-- The name in the modern format. -/
def name : Layer → String
  | frontCopper => "F.Cu"
  | backCopper => "B.Cu"
  | frontSilk => "F.SilkS"
  | backSilk => "B.SilkS"
  | frontPaste => "F.Paste"
  | backPaste => "B.Paste"
  | frontMask => "F.Mask"
  | backMask => "B.Mask"
  | drawings => "Dwgs.User"
  | edgeCuts => "Edge.Cuts"
  | frontFab => "F.Fab"
  | frontCourtyard => "F.CrtYd"
  | allCopper => "*.Cu"
  | allMask => "*.Mask"

/-- The number in the legacy format. Fab and courtyard take the places of layers that have no other
use there. -/
def number : Layer → Nat
  | backCopper => 0
  | frontCopper | allCopper => 15
  | backPaste => 18
  | frontPaste => 19
  | backSilk => 20
  | frontSilk => 21
  | backMask => 22
  | frontMask | allMask => 23
  | drawings => 24
  | frontCourtyard => 26
  | frontFab => 27
  | edgeCuts => 28

/-- The set of legacy numbers that the layer stands for, as a bit mask. -/
def mask : Layer → Nat
  | allCopper => 0xFFFF
  | allMask => Nat.pow 2 22 + Nat.pow 2 23
  | layer => Nat.pow 2 layer.number

/-- The layer of a vendor code, blanks at its ends left out. Lines between unconnected pads, and the
layer that means all layers, are drawn as drawings. -/
def ofCode? (code : String) : Option Layer :=
  match Text.trimmed code with
  | "1" => some frontCopper
  | "2" => some backCopper
  | "3" => some frontSilk
  | "4" => some backSilk
  | "5" => some frontPaste
  | "6" => some backPaste
  | "7" => some frontMask
  | "8" => some backMask
  | "9" | "11" => some drawings
  | "10" => some edgeCuts
  | "12" => some frontFab
  | "100" => some frontSilk
  | "101" => some frontCourtyard
  | _ => none

/-- The layer of drawings whose code is unknown. -/
def fallback : Layer := frontSilk

end Layer

end EdaParts
