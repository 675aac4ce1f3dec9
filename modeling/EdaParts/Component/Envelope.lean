import EdaParts.Error
import EdaParts.Json.Layout

/-!
# Envelopes

The vendor wraps every answer in an envelope that says whether the request succeeded.
-/

namespace EdaParts

/-- What an envelope holds; every part of it may be missing. -/
structure Envelope where
  success : Option Bool := none
  result : Option Json.Value := none
  code : Option Int := none
  message : Option String := none

namespace Envelope

open Json (optional)

/-- An envelope as a record. The last three parts stand in every envelope written as an array. -/
def layout : Json.Layout Envelope :=
  ⟨"an envelope",
    [.of "success" .optional (optional Json.bool) fun e success => { e with success },
      .of "result" .inArrays (optional (Json.value (Json.greatestDepth - 1)))
        fun e result => { e with result },
      .of "code" .inArrays (optional Json.integer) fun e code => { e with code },
      .of "message" .inArrays (optional Json.text) fun e message => { e with message }]⟩

def read (text : String) : Except Error Envelope :=
  ((layout.read {}).run text).mapError fun _ => .badDocument

/-- The answer in an envelope. A failure is told by the flag, or by a code other than zero. -/
def answer (e : Envelope) : Except Error Json.Value :=
  let code := e.code.getD 0
  if e.success = some false || code ≠ 0 then
    .error (.remote code (e.message.getD "Unknown API error"))
  else
    match e.result with
    | some v => .ok v
    | none => .error (.missingData "API response missing 'result' field")

end Envelope

end EdaParts
