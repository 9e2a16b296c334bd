import Mathlib.Data.Finset.Sort
import Mathlib.Data.String.Basic
import Mathlib.Data.Rat.Defs

/-!
# Problem texts

What the study tools compare problems by: the canonical text, its digest, the
template that is left when the numerals are gone, and the five-word grams with a
sketch of them. Python's Unicode tables, SHA-256 and MinHash are outside the
repository and are parameters without laws; a result names what it asks of them.
-/

namespace Crisp.Ref

/-- The tables and hashes a text goes through. `sha256` is the hexadecimal digest
of the UTF-8 encoding, and `minHash` the sketch of a batch of grams. -/
structure TextOps (σ : Type) where
  nfkc : String → String
  lower : String → String
  isSpace : Char → Bool
  isWord : Char → Bool
  isDigit : Char → Bool
  sha256 : String → String
  minHash : List String → σ

/-- `pattern in text`. -/
def contains (text pattern : String) : Bool :=
  text.toList.tails.any fun rest => pattern.toList.isPrefixOf rest

section Text

variable {σ : Type} (ops : TextOps σ)

/-- `text.split()`, from the word read so far. -/
def splitFrom (isSpace : Char → Bool) (word : List Char) : List Char → List (List Char)
  | [] => if word = [] then [] else [word]
  | c :: rest =>
      if isSpace c then
        if word = [] then splitFrom isSpace [] rest else word :: splitFrom isSpace [] rest
      else splitFrom isSpace (word ++ [c]) rest

/-- `_canonical`. -/
def canonical (text : String) : String :=
  " ".intercalate ((splitFrom ops.isSpace [] (ops.lower (ops.nfkc text)).toList).map String.ofList)

/-- `_digest`. -/
def digest (text : String) : String := ops.sha256 text

/-- Where the scan for `\d+(?:\.\d+)?` is. -/
inductive NumeralScan where
  | outside
  | integer
  | fraction
  deriving DecidableEq

/-- `re.sub(r"\d+(?:\.\d+)?", "#", text)`. -/
def numeralsErased (isDigit : Char → Bool) : NumeralScan → List Char → List Char
  | _, [] => []
  | scan, c :: rest =>
      if isDigit c then
        match scan with
        | .outside => '#' :: numeralsErased isDigit .integer rest
        | scan => numeralsErased isDigit scan rest
      else if scan = .integer ∧ c = '.' ∧ rest.head?.any isDigit then
        numeralsErased isDigit .fraction rest
      else c :: numeralsErased isDigit .outside rest

/-- The numeric template of a canonical text. -/
def template (text : String) : String :=
  String.ofList (numeralsErased ops.isDigit .outside text.toList)

/-- `re.findall(r"\w+|[^\w\s]", text)`, from the word read so far. -/
def findWords (isWord isSpace : Char → Bool) (word : List Char) : List Char → List (List Char)
  | [] => if word = [] then [] else [word]
  | c :: rest =>
      if isWord c then findWords isWord isSpace (word ++ [c]) rest
      else
        let found := if word = [] then [] else [word]
        let mark := if isSpace c then [] else [[c]]
        found ++ mark ++ findWords isWord isSpace [] rest

/-- The grams of `_sketch`, as a set. -/
def gramSet (text : String) : Finset String :=
  let words := (findWords ops.isWord ops.isSpace [] (canonical ops text).toList).map String.ofList
  ((List.range (max 1 (words.length - 4))).map fun i =>
    " ".intercalate ((words.drop i).take 5)).toFinset

/-- `_sketch`. -/
def sketch (text : String) : σ × Finset String :=
  let grams := gramSet ops text
  (ops.minHash (grams.sort (· ≤ ·)), grams)

/-- A text has a gram, if only the empty one. -/
theorem gramSet_nonempty (text : String) : (gramSet ops text).Nonempty := by
  unfold gramSet
  dsimp only
  rw [List.toFinset_nonempty_iff]
  intro hnil
  have hlength := congrArg List.length hnil
  rw [List.length_map, List.length_range, List.length_nil] at hlength
  omega

/-- `len(a & b) / len(a | b)`. -/
def jaccard (a b : Finset String) : ℚ := (a ∩ b).card / (a ∪ b).card

/-- `_contains_derivation`. -/
def containsDerivation (problem : String) : Bool :=
  let text := canonical ops problem
  let markers := (["thus:", "therefore:", "substitute", "combining", "conclusion:"].filter
    (contains text)).length
  contains text "\\boxed" || (text.length > 800 && markers ≥ 3)

end Text

end Crisp.Ref
