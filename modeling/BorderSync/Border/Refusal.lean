/-
# BorderSync.Border.Refusal -- what a border server says when it refuses

A refusal usually carries an object with an `error` that has a `text`; then that text is the
message. Any other body is the message itself.
-/
import BorderSync.Border.Entry

namespace BorderSync.Border.Refusal

open Json (Value)

/-- The text of an error object; without one the text is empty. It may be given as an array, too. -/
def detail? : Value → Option String
  | .object members => do
    let ms ← Entry.named? members
    if Entry.onceEach ["text"] ms then
      match ms.lookup "text" with
      | none => some ""
      | some v => v.text?
    else none
  | .array [] => some ""
  | .array [v] => v.text?
  | _ => none

/-- The text of a refusal. -/
def text? : Value → Option String
  | .object members => do
    let ms ← Entry.named? members
    if Entry.onceEach ["error"] ms then (ms.lookup "error").bind detail? else none
  | .array [v] => detail? v
  | _ => none

/-- **The message of a refusal.** -/
def message (body : List UInt8) : String :=
  let shown := Text.Utf8.decodeLossy (Text.Utf8.dropMark body)
  ((Value.read? (Text.Utf8.encode shown)).bind text?).getD (String.ofList shown)

end BorderSync.Border.Refusal
