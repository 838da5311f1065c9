/-!
# Numbers in text

Counts and identifiers are written in decimal. Addresses, handles and raw codes are
written in upper-case hexadecimal after `0x`, filled with zeros up to a least number of
digits: eight for a word, four for a command identifier, one where no width is asked.
-/

namespace MicrokernelIpc.Text

/-- The upper-case hexadecimal digits of `n`, at least `minDigits` of them. -/
def hexDigits (minDigits n : Nat) : List Char :=
  let digits := (Nat.toDigits 16 n).map Char.toUpper
  List.replicate (minDigits - digits.length) '0' ++ digits

/-- `n` in hexadecimal, with at least `minDigits` digits after `0x`. -/
def hex (minDigits n : Nat) : String := "0x" ++ String.ofList (hexDigits minDigits n)

/-- A word in hexadecimal: at least eight digits. -/
def hexWord (n : Nat) : String := hex 8 n

theorem hexDigits_length (minDigits n : Nat) : minDigits ≤ (hexDigits minDigits n).length := by
  simp only [hexDigits, List.length_append, List.length_replicate]
  omega

end MicrokernelIpc.Text
