import StraightWasm.Text.Alphanumeric
import StraightWasm.Text.LetterCase

/-!
# Snake case

A name is cut into words, and the words are joined by underscores in lower case. Characters that are
neither letters nor numbers only separate words. Within a piece between separators, a new word
starts where a lowercase letter is followed by an uppercase one, and at the last of several
uppercase letters when a lowercase letter follows it, so that an acronym stays one word.
-/

set_option autoImplicit false
set_option relaxedAutoImplicit false

namespace StraightWasm.Text

/-- The case of the letters passed last within a word; characters without case do not change it. -/
inductive WordCase where
  | unknown
  | lower
  | upper
  deriving DecidableEq, Repr

namespace WordCase

/-- The case after passing one more character. -/
def after (case : WordCase) (character : Char) : WordCase :=
  if isLowercase character then lower
  else if isUppercase character then upper
  else case

end WordCase

/-- Cuts the rest of a piece into words, given the word that has begun, reversed, and its case, and
the words that are complete, the last one first. -/
def wordsFrom (words : List (List Char)) (word : List Char) (case : WordCase) :
    List Char → List (List Char)
  | [] => words.reverse
  | [last] => ((last :: word).reverse :: words).reverse
  | character :: following :: rest =>
    let passed := case.after character
    if passed = .lower ∧ isUppercase following then
      wordsFrom ((character :: word).reverse :: words) [] .unknown (following :: rest)
    else if case = .upper ∧ isUppercase character ∧ isLowercase following then
      wordsFrom (word.reverse :: words) [character] .unknown (following :: rest)
    else wordsFrom words (character :: word) passed (following :: rest)

/-- The words of a piece without separators. -/
def wordsOfPiece (piece : List Char) : List (List Char) :=
  wordsFrom [] [] .unknown piece

/-- The pieces of a text between characters that are neither letters nor numbers, given the piece
that has begun, reversed, and the pieces that are complete, the last one first. -/
def piecesFrom (pieces : List (List Char)) (piece : List Char) : List Char → List (List Char)
  | [] => (piece.reverse :: pieces).reverse
  | character :: rest =>
    if isAlphanumeric character then piecesFrom pieces (character :: piece) rest
    else piecesFrom (piece.reverse :: pieces) [] rest

/-- The words of a text. -/
def words (text : List Char) : List (List Char) :=
  (piecesFrom [] [] text).flatMap wordsOfPiece

/-- A word in lower case. A capital sigma at its end becomes a final sigma. -/
def lowercaseWord (word : List Char) : List Char :=
  match word.reverse with
  | 'Σ' :: front => front.reverse.flatMap lowercase ++ ['ς']
  | _ => word.flatMap lowercase

/-- A text in snake case. -/
def snakeCase (text : String) : String :=
  String.ofList (['_'].intercalate ((words text.toList).map lowercaseWord))

end StraightWasm.Text
