/-!
# Upper case

Words are recognised in any case. Upper case is taken character by character, and one character may become
several letters. Only the results that are ASCII letters throughout can spell an ASCII word, so only those
are listed; every other character outside ASCII stands for itself, which no ASCII word has.
-/

namespace Logbook.Text

/-- The upper case of a character, as far as it is made of ASCII letters. -/
def upperChar (c : Char) : List Char :=
  match c with
  | 'ı' => ['I']
  | 'ſ' => ['S']
  | 'ß' => ['S', 'S']
  | 'ﬀ' => ['F', 'F']
  | 'ﬁ' => ['F', 'I']
  | 'ﬂ' => ['F', 'L']
  | 'ﬃ' => ['F', 'F', 'I']
  | 'ﬄ' => ['F', 'F', 'L']
  | 'ﬅ' => ['S', 'T']
  | 'ﬆ' => ['S', 'T']
  | c => [c.toUpper]

/-- The upper case of a text, as far as it is made of ASCII letters. -/
def upper (s : String) : String := String.ofList (s.toList.flatMap upperChar)

end Logbook.Text
