/-
Module: GyreWard.Model.Client
Purpose: The page (`client/src/main.js`, `client/src/commands.js`, `client/src/pill.js`) and the framed
  reader of `client/src/cbor.js`: what the page makes of a reply, and the line it sends.
Trusted boundary: human-reviewed translation of the source; Lexical hands over the text nodes and the
  pills of the root in their order, and the page has at most one board
Main exports: decodeFramed, Js.member, applyReply, MenuEntry, commands, Node, textContent, serialize,
  pick, textEncode
-/
import GyreWard.Lib.Words
import GyreWard.Model.Cbor

namespace GyreWard

open Lib

/-! ### Replies -/

/-- The length in front of a frame, `>>> 0` being what makes it unsigned. -/
def frameLength (b0 b1 b2 b3 : UInt8) : Nat :=
  (b0.toNat <<< 24 ||| b1.toNat <<< 16 ||| b2.toNat <<< 8 ||| b3.toNat) % 2 ^ 32

/-- `decodeFramed`: `none` is an exception, and `some none` is `null`. -/
def decodeFramed (bytes : List UInt8) : Option (Option (Js × Nat)) :=
  match bytes with
  | b0 :: b1 :: b2 :: b3 :: rest =>
      let n := frameLength b0 b1 b2 b3
      if bytes.length < 4 + n then some none
      else
        match decode (rest.take n) with
        | none => none
        | some (value, _) => some (some (value, 4 + n))
  | _ => some none

/-- A property that no built-in prototype has, looked up along the chain of prototypes; `none` is
`undefined`. -/
def Js.field (name : JsString) : Js → Option Js
  | .object fields => fields.lookup name
  | .heir parent fields => (fields.lookup name).or (parent.field name)
  | _ => none

/-- `value.name`: nothing can be asked of `null` or `undefined`, and the outer `none` is that
`TypeError`. -/
def Js.member (name : JsString) : Option Js → Option (Option Js)
  | none => none
  | some .null => none
  | some value => some (value.field name)

/-- What a template makes of a value. -/
def Js.shown : Option Js → Option JsString
  | none => some (jsText "undefined")
  | some value => value.view.face.text

/-- `${reply.ward.name}`. -/
def wardFigure (reply : Js) (name : String) : Option JsString := do
  let ward ← Js.member (jsText "ward") (some reply)
  let figure ← Js.member (jsText name) ward
  Js.shown figure

/-- The text of the board. -/
def boardText (reply : Js) : Option JsString := do
  let cycle ← wardFigure reply "cycle"
  let treasury ← wardFigure reply "treasury"
  let debt ← wardFigure reply "debt"
  let sparks ← wardFigure reply "sparks"
  let say ← Js.shown (← Js.member (jsText "say") (some reply))
  return jsText "cycle " ++ cycle ++ jsText " · treasury " ++ treasury ++ jsText " · debt " ++ debt ++
    jsText " · " ++ sparks ++ jsText " Sparks — " ++ say

/-- What `applyReply` returns, and what it writes on the board, if anything. -/
structure Applied where
  reply : Js
  board : Option JsString

/-- `applyReply`, on a page with a board or without one; `none` is an exception. -/
def applyReply (hasBoard : Bool) (bytes : List UInt8) : Option Applied := do
  match ← decodeFramed bytes with
  | none => return { reply := .null, board := none }
  | some (reply, _) =>
      if hasBoard then
        let board ← boardText reply
        return { reply, board := some board }
      else return { reply, board := none }

/-! ### Commands -/

/-- A parameter of the menu, with the value its pill starts with. -/
structure MenuParam where
  name : JsString
  value : JsString
deriving DecidableEq, Repr

/-- An entry of the menu, less its description and the relation it is shown for. -/
structure MenuEntry where
  verb : JsString
  params : List MenuParam
deriving DecidableEq, Repr

/-- `COMMANDS`. -/
def commands : List MenuEntry :=
  [ { verb := jsText "look", params := [] },
    { verb := jsText "cycle", params := [⟨jsText "days", jsText "1"⟩] },
    { verb := jsText "commission", params := [⟨jsText "venue", jsText "0"⟩] },
    { verb := jsText "pay"
      params := [⟨jsText "spark", jsText "0"⟩, ⟨jsText "amount", jsText "10"⟩] },
    { verb := jsText "restart", params := [] } ]

/-- What the editor holds: text, and `CommandPillNode`. -/
inductive Node where
  | text (s : JsString)
  | pill (name value : JsString)
deriving DecidableEq, Repr

/-- `getTextContent`: a pill is its value. -/
def Node.textContent : Node → JsString
  | .text s => s
  | .pill _ value => value

/-- `$getRoot().getTextContent()`. -/
def textContent (root : List Node) : JsString := root.flatMap Node.textContent

/-- `serialize`: `replace(/\s+/g, ' ')`, and `trim`. -/
def serialize (root : List Node) : JsString :=
  jsTrim (squeeze isJsSpace 0x20 false (textContent root))

/-- The nodes `pick` puts in the field. -/
def pick (command : MenuEntry) : List Node :=
  .text (0x2f :: command.verb) ::
    (command.params.flatMap fun p => [.text [0x20], .pill p.name p.value]) ++ [.text [0x20]]

/-- A code point in UTF-8; half a surrogate pair is a U+FFFD. -/
def utf8Bytes (c : Nat) : List UInt8 :=
  if c < 0x80 then [UInt8.ofNat c]
  else if c < 0x800 then [UInt8.ofNat (0xC0 ||| c >>> 6), UInt8.ofNat (0x80 ||| (c &&& 0x3F))]
  else if 0xD800 ≤ c ∧ c ≤ 0xDFFF then [0xEF, 0xBF, 0xBD]
  else if c < 0x10000 then
    [UInt8.ofNat (0xE0 ||| c >>> 12), UInt8.ofNat (0x80 ||| (c >>> 6 &&& 0x3F)),
      UInt8.ofNat (0x80 ||| (c &&& 0x3F))]
  else
    [UInt8.ofNat (0xF0 ||| c >>> 18), UInt8.ofNat (0x80 ||| (c >>> 12 &&& 0x3F)),
      UInt8.ofNat (0x80 ||| (c >>> 6 &&& 0x3F)), UInt8.ofNat (0x80 ||| (c &&& 0x3F))]

/-- `new TextEncoder().encode(s)`, as the line is sent. -/
def textEncode (s : JsString) : List UInt8 := s.flatMap utf8Bytes

end GyreWard
