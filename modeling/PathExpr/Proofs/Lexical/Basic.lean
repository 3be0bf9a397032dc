import PathExpr.Proofs.Double.Rounded
import PathExpr.Proofs.Token.Numeral
import PathExpr.Text.Blank

set_option autoImplicit false

namespace PathExpr

namespace Numeral

def digits (n : Numeral) : List Char := n.whole ++ n.fraction.getD []

def places (n : Numeral) : Nat := (n.fraction.getD []).length

/-- The double is the correctly rounded value of the numeral, and that is finite. -/
structure RoundsTo (n : Numeral) (x : Float) : Prop where
  finite : x.isFinite = true
  sign : Double.isNegative x = n.negative
  nearest : Double.IsNearest (Nat.ofDigitChars 10 n.digits 0 * Double.unitsPerOne) (10 ^ n.places)
    (Double.magnitude x)

end Numeral

namespace Token

/-- A step of a path as it is written. -/
inductive Step where
  /-- A word behind a point. -/
  | name (word : List Char) (isWord : Text.isWord word = true)
  /-- Any name, quoted between brackets. -/
  | quoted (field : String)
  /-- The digits of a position between brackets. -/
  | index (digits : List Char) (some : digits ≠ []) (areDigits : ∀ c ∈ digits, c.isDigit = true)
      (small : Nat.ofDigitChars 10 digits 0 < UInt64.size)

namespace Step

def chars : Step → List Char
  | name word _ => '.' :: word
  | quoted field => '[' :: (Text.quote field).toList ++ [']']
  | index digits _ _ _ => '[' :: digits ++ [']']

def segment : Step → Segment
  | name word _ => .field (String.ofList word)
  | quoted field => .field field
  | index digits _ _ _ => .index (UInt64.ofNat (Nat.ofDigitChars 10 digits 0))

/-- A name takes in all characters of a word. -/
def further : Step → Char → Bool
  | name _ _, c => Text.isWordChar c
  | quoted _, _ => false
  | index _ _ _ _, _ => false

end Step

/-- Whether the token has one spelling, its text. -/
def isFixed : Token → Bool
  | path _ => false
  | number _ => false
  | string _ => false
  | _ => true

/-- What the one spelling of a token would go on with: keywords with more of a word, a minus sign
with a number, and two comparisons with the sign that makes them other ones. -/
def fixedFurther : Token → Char → Bool
  | boolean _, c => Text.isWordChar c
  | function _, c => Text.isWordChar c
  | logical _ .word, c => Text.isWordChar c
  | minus, c => c.isDigit
  | comparison .less, c => c == '='
  | comparison .greater, c => c == '='
  | _, _ => false

inductive Lexeme where
  | number (numeral : Numeral) (wellFormed : numeral.WellFormed) (value : Float)
      (rounds : numeral.RoundsTo value)
  | string (text : String)
  | path (steps : List Step)
  | fixed (token : Token) (isFixed : token.isFixed = true)

namespace Lexeme

def chars : Lexeme → List Char
  | number numeral _ _ _ => numeral.chars
  | string text => (Text.quote text).toList
  | path steps => '$' :: steps.flatMap Step.chars
  | fixed token _ => token.text.toList

def token : Lexeme → Token
  | number _ _ value _ => .number value
  | string text => .string text
  | path steps => .path ⟨steps.map Step.segment⟩
  | fixed token _ => token

def further : Lexeme → Char → Bool
  | number numeral _ _ _, c => c.isDigit || (numeral.fraction.isNone && c == '.')
  | string _, _ => false
  | path steps, c => c == '.' || c == '[' || steps.getLast?.any fun last => last.further c
  | fixed token _, c => token.fixedFurther c

theorem further_path_singleton (last : Step) (c : Char) :
    (path [last]).further c = ((path []).further c || last.further c) := by
  simp only [further, List.getLast?_singleton, List.getLast?_nil, Option.any_some, Option.any_none,
    Bool.or_false]

theorem further_path_cons_cons (first second : Step) (others : List Step) (c : Char) :
    (path (first :: second :: others)).further c = (path (second :: others)).further c := by
  rw [further, further, List.getLast?_cons_cons]

end Lexeme

/-- The characters are the lexemes, with blanks in front, between them and behind. No lexeme is
followed by a character that it would go on with. -/
inductive Splits : List Char → List Lexeme → Prop
  | blanks {blanks : List Char} (areBlank : ∀ c ∈ blanks, Text.isBlank c = true) :
      Splits blanks []
  | lexeme {blanks rest : List Char} {lexeme : Lexeme} {others : List Lexeme}
      (areBlank : ∀ c ∈ blanks, Text.isBlank c = true)
      (ends : ∀ c ∈ rest.head?, lexeme.further c = false) (onward : Splits rest others) :
      Splits (blanks ++ lexeme.chars ++ rest) (lexeme :: others)

end Token

theorem Numeral.value_eq (n : Numeral) :
    n.value = Double.ofMagnitude n.negative
      (Double.nearest (Nat.ofDigitChars 10 n.digits 0 * Double.unitsPerOne) (10 ^ n.places)) := by
  have noPower : ((0 : Int) - n.places).toNat = 0 := by omega
  have isPlaces : (-((0 : Int) - n.places)).toNat = n.places := by omega
  have isNumerator : (Decimal.ofDigits n.whole (n.fraction.getD []) 0).numerator =
      Nat.ofDigitChars 10 n.digits 0 * Double.unitsPerOne := by
    show Nat.ofDigitChars 10 n.digits 0 * 10 ^ ((0 : Int) - n.places).toNat * _ = _
    rw [noPower, Nat.pow_zero, Nat.mul_one]
  have isDenominator : (Decimal.ofDigits n.whole (n.fraction.getD []) 0).denominator =
      10 ^ n.places := by
    show 10 ^ (-((0 : Int) - n.places)).toNat = _
    rw [isPlaces]
  unfold value Decimal.toDouble
  rw [Decimal.nearest_eq, isNumerator, isDenominator]

theorem Numeral.roundsTo_iff {n : Numeral} {x : Float} :
    n.RoundsTo x ↔ n.value = x ∧ x.isFinite = true := by
  have positive : 0 < 10 ^ n.places := Nat.pow_pos (by decide)
  rw [n.value_eq]
  constructor
  · intro rounds
    rw [(Double.isNearest_iff positive).1 rounds.nearest, ← rounds.sign,
      Double.ofMagnitude_magnitude]
    exact ⟨rfl, rounds.finite⟩
  · rintro ⟨rfl, finite⟩
    have nearest : Double.IsNearest (Nat.ofDigitChars 10 n.digits 0 * Double.unitsPerOne)
        (10 ^ n.places) (Double.nearest _ (10 ^ n.places)) := Double.isNearest_nearest positive
    refine ⟨finite, Double.isNegative_ofMagnitude _ nearest.bounded, ?_⟩
    rw [Double.magnitude_ofMagnitude _ nearest.bounded]
    exact nearest

end PathExpr
