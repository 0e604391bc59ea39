/-
The reply of the server. It is received as bytes, and `islanding` and `island_management` take the text
for `json.loads` from how Python shows the bytes, without decoding them. Whatever is escaped there is
escaped in the text: the same text arrives exactly when there is nothing to escape.
-/
import GripAbsorption.Base.Bytes

namespace Grip.Islanding

open Grip.Base

/-- `str(res)[2:-1]`. -/
def replyText (res : List UInt8) : Text := inner (reprBytes res)

/-- The text that is sent arrives exactly when its characters are printable ASCII without a backslash, and not both
quotes occur. -/
theorem replyText_utf8_eq_iff (text : Text) :
    replyText (utf8 text) = text ↔
      (∀ c ∈ text, (32 ≤ c.toNat ∧ c.toNat ≤ 126) ∧ c ≠ '\\') ∧ ¬ ('\'' ∈ text ∧ '"' ∈ text) :=
  inner_reprBytes_utf8 text

/-- The name `it's` makes the text invalid. -/
theorem replyText_quote : replyText (utf8 "[\"it's\"]".toList) = "[\"it\\'s\"]".toList ∧
    ¬ ∀ text : Text, replyText (utf8 text) = text := by
  have hquote : replyText (utf8 "[\"it's\"]".toList) = "[\"it\\'s\"]".toList := by decide +kernel
  refine ⟨hquote, fun h => ?_⟩
  rw [h] at hquote
  revert hquote
  decide +kernel

end Grip.Islanding
