/-
Module: GyreWard.Proofs.Page
Purpose: The page reads frames, and the ward sends none: what the page makes of a reply is `null`.
Trusted boundary: none
Main exports: decodeFramed_frame, reply_begins, asked_begins, ShowsWhatWasSent, the_page_reads_no_reply
-/
import GyreWard.Model.Client
import GyreWard.Model.Transport
import GyreWard.Proofs.OneReply

namespace GyreWard

open Lib

/-! ### Frames -/

/-- A frame of the length its head says is read as what is in it, and no further. -/
theorem decodeFramed_frame {b0 b1 b2 b3 : UInt8} {body : List UInt8} {v : Js} {rest : List UInt8}
    (length : frameLength b0 b1 b2 b3 = body.length) (read : decode body = some (v, rest))
    (more : List UInt8) :
    decodeFramed (b0 :: b1 :: b2 :: b3 :: (body ++ more)) = some (some (v, 4 + body.length)) := by
  have room : ¬ (b0 :: b1 :: b2 :: b3 :: (body ++ more)).length < 4 + body.length := by
    simp only [List.length_cons, List.length_append]
    omega
  rw [decodeFramed, length]
  simp only [if_neg room, List.take_left', read]

/-- What is shorter than its head says is not read. -/
theorem decodeFramed_short {b0 b1 b2 b3 : UInt8} {rest : List UInt8}
    (short : rest.length < frameLength b0 b1 b2 b3) :
    decodeFramed (b0 :: b1 :: b2 :: b3 :: rest) = some none := by
  rw [decodeFramed, if_pos]
  simp only [List.length_cons]
  omega

/-! ### Replies -/

/-- A reply begins with the head of a map of seven, and the key `ok`. -/
theorem reply_begins (r : Reply) : ∃ rest, r.bytes = 0xa7 :: 0x62 :: 0x6f :: 0x6b :: rest := by
  have head : headBytes 5 7 = [0xa7] := rfl
  have key : textBytes (text "ok") = [0x62, 0x6f, 0x6b] := by decide
  rw [Reply.bytes, Reply.fields, fieldsBytes, List.flatMap_cons, head, key]
  exact ⟨_, rfl⟩

/-- What `ward_ask` returns is nothing, or begins as a reply does and fits in its room. -/
theorem asked_begins {line : Text} {cap : Nat} {w w' : World} {bytes : List UInt8}
    (asked : wardAsk line cap w = (.ret bytes, w')) (some : bytes ≠ []) :
    bytes.length ≤ cap ∧ ∃ rest, bytes = 0xa7 :: 0x62 :: 0x6f :: 0x6b :: rest := by
  unfold wardAsk wardCommand at asked
  obtain ⟨c, w₂, replied, asked⟩ := Action.bind_eq_ret asked
  obtain ⟨result, rfl⟩ := Action.pure_eq_ret asked
  obtain ⟨a, w₁, ran, replied⟩ := Action.bind_eq_ret replied
  rw [wardReply_eq] at replied
  obtain ⟨r, w₃, gathered, replied⟩ := Action.bind_eq_ret replied
  obtain ⟨rfl, rfl⟩ := Action.pure_eq_ret replied
  rw [write_sent r cap] at result
  unfold Reply.sent at result
  by_cases room : r.bytes.length ≤ cap
  · rw [if_pos room] at result
    rw [← result]
    exact ⟨room, reply_begins r⟩
  · rw [if_neg room] at result
    exact absurd result.symm some

/-- The page returns what the ward sent, and not `null`. -/
def ShowsWhatWasSent (hasBoard : Bool) (bytes : List UInt8) : Prop :=
  ∃ applied v rest, applyReply hasBoard bytes = some applied ∧ decode bytes = some (v, rest) ∧
    applied.reply = v ∧ v ≠ .null

/-- The page takes the first bytes of a reply for the length of a frame, which no reply reaches. -/
theorem applyReply_asked {line : Text} {w w' : World} {bytes : List UInt8}
    (asked : wardAsk line wtReplyMax w = (.ret bytes, w')) (some : bytes ≠ []) (hasBoard : Bool) :
    applyReply hasBoard bytes = .some { reply := .null, board := none } := by
  obtain ⟨room, rest, rfl⟩ := asked_begins asked some
  have length : frameLength 0xa7 0x62 0x6f 0x6b = 0xa7626f6b := rfl
  have short : rest.length < frameLength 0xa7 0x62 0x6f 0x6b := by
    rw [length]
    simp only [List.length_cons, wtReplyMax] at room
    omega
  rw [applyReply, decodeFramed_short short]
  rfl

theorem not_shows {hasBoard : Bool} {bytes : List UInt8}
    (applied : applyReply hasBoard bytes = some { reply := .null, board := none }) :
    ¬ ShowsWhatWasSent hasBoard bytes := by
  rintro ⟨shown, v, rest, returned, -, same, there⟩
  obtain rfl := Option.some.inj (applied.symm.trans returned)
  exact there same.symm

/-- Whatever the ward answers, to any command: the page returns `null`, and leaves the board as it
was. -/
theorem the_page_reads_no_reply (line : Text) (w w' : World) (bytes : List UInt8)
    (asked : wardAsk line wtReplyMax w = (.ret bytes, w')) (sent : bytes ≠ []) (hasBoard : Bool) :
    applyReply hasBoard bytes = some { reply := .null, board := none } ∧
      ¬ ShowsWhatWasSent hasBoard bytes := by
  have applied := applyReply_asked asked sent hasBoard
  exact ⟨applied, not_shows applied⟩

/-- A ward that answers a look. -/
theorem small_ward_answers :
    ∃ bytes w', wardAsk (text "look") wtReplyMax smallWard = (.ret bytes, w') ∧ bytes ≠ [] := by
  have answered : isAnswered (wardAsk (text "look") wtReplyMax smallWard).1 = true := by
    decide +kernel
  cases run : wardAsk (text "look") wtReplyMax smallWard with
  | mk result w' =>
      rw [run] at answered
      cases result with
      | ret bytes =>
          refine ⟨bytes, w', rfl, ?_⟩
          rintro rfl
          cases answered
      | fail => cases answered
      | halt => cases answered

theorem the_page_reads_no_look :
    ∃ bytes w', wardAsk (text "look") wtReplyMax smallWard = (.ret bytes, w') ∧
      applyReply true bytes = some { reply := .null, board := none } ∧
      ¬ ShowsWhatWasSent true bytes := by
  obtain ⟨bytes, w', asked, sent⟩ := small_ward_answers
  exact ⟨bytes, w', asked, the_page_reads_no_reply (text "look") smallWard w' bytes asked sent true⟩

theorem a_look_is_not_shown :
    ¬ ∀ (line : Text) (w w' : World) (bytes : List UInt8) (hasBoard : Bool),
        wardAsk line wtReplyMax w = (.ret bytes, w') → bytes ≠ [] →
          ShowsWhatWasSent hasBoard bytes := by
  intro shows
  obtain ⟨bytes, w', asked, sent⟩ := small_ward_answers
  exact not_shows (applyReply_asked asked sent true) (shows _ _ _ bytes true asked sent)

end GyreWard
