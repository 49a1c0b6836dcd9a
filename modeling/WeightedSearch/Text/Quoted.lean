/-
Quoted text.

A text between quotes, for messages and listings: every character that could be mistaken for the
end of the text, for another character or for nothing at all is escaped.  Main statements:

* `newline_not_mem_quote` — a quoted text is on one line.
-/
import WeightedSearch.Text.Printable
import WeightedSearch.Text.GraphemeExtend
import WeightedSearch.Text.DefaultIgnorable

namespace WeightedSearch

/-- The digits of a number in base 16, without leading zeros. -/
def hexDigits (n : Nat) : List Char :=
  if n < 16 then [Nat.digitChar n] else hexDigits (n / 16) ++ [Nat.digitChar (n % 16)]

/-- The character between quotes; one that is not `shown` is written by its code point. -/
def quoteChar (shown : Char → Bool) (c : Char) : List Char :=
  if c = Char.ofNat 0 then ['\\', '0']
  else if c = '\t' then ['\\', 't']
  else if c = '\r' then ['\\', 'r']
  else if c = '\n' then ['\\', 'n']
  else if c = '\\' || c = '"' then ['\\', c]
  else if shown c then [c]
  else ['\\', 'u', '{'] ++ hexDigits c.toNat ++ ['}']

/-- The characters between quotes. -/
def quote (shown : Char → Bool) (s : List Char) : List Char :=
  '"' :: (s.flatMap (quoteChar shown) ++ ['"'])

/-- Whether the character is one of the two halfwidth sound marks of Katakana. -/
def isSoundMark (c : Char) : Bool :=
  c.toNat == 0xFF9E || c.toNat == 0xFF9F

/-- Whether the character is seen by itself: it is printable, it leaves a trace, and it is not drawn
with the one before. The halfwidth sound marks extend the character before them, but have a width of
their own. -/
def isSeen (c : Char) : Bool :=
  isPrintable c && !isDefaultIgnorable c && (!isGraphemeExtend c || isSoundMark c)

/-- The text between quotes. -/
def quoted (text : String) : String :=
  String.ofList (quote isSeen text.toList)

theorem not_mem_hexDigits {c : Char} (h : ∀ d < 16, c ≠ Nat.digitChar d) (n : Nat) :
    c ∉ hexDigits n := by
  fun_induction hexDigits n with
  | case1 n hn => simp [h n hn]
  | case2 n hn ih => simp [ih, h (n % 16) (by omega)]

theorem newline_not_mem_quoteChar (shown : Char → Bool) (c : Char) :
    '\n' ∉ quoteChar shown c := by
  unfold quoteChar
  have : '\n' ∉ hexDigits c.toNat := not_mem_hexDigits (by decide) c.toNat
  repeat' split
  all_goals simp_all
  all_goals grind

theorem newline_not_mem_quote (shown : Char → Bool) (s : List Char) :
    '\n' ∉ quote shown s := by
  simp [quote, newline_not_mem_quoteChar]

end WeightedSearch
