import Footage.Binary64.Shortest
import Footage.Sql.Condition

/-!
The pieces that a statement's text is made of. A text argument becomes a literal between single
quotes, in which a quote is written twice; nothing else in a text is changed.
-/

namespace Footage.Sql

inductive Piece where
  /-- A keyword, a type or the name of a function. -/
  | word (s : String)
  | identifier (s : String)
  | literal (s : String)
  | numeral (s : String)
  | symbol (s : String)
  | blank
  deriving DecidableEq, Repr

/-- A text between quotes, with the quotes in it doubled. -/
def quoted (quote : Char) (cs : List Char) : List Char :=
  quote :: cs.flatMap (fun c => if c = quote then [c, c] else [c]) ++ [quote]

def Piece.characters : Piece → List Char
  | .word s => s.toList
  | .identifier s => quoted '"' s.toList
  | .literal s => quoted '\'' s.toList
  | .numeral s => s.toList
  | .symbol s => s.toList
  | .blank => [' ']

/-- The text of a row of pieces. -/
def text (pieces : List Piece) : String := String.ofList (pieces.flatMap Piece.characters)

/-- The reader of a statement stops at the first null character. What it has read then of the literal
that has it. -/
def openLiteral? (pieces : List Piece) : Option String :=
  pieces.findSome? fun
    | .literal s =>
      if s.toList.contains '\x00' then
        some (String.ofList ((quoted '\'' s.toList).takeWhile fun c => c ≠ '\x00'))
      else none
    | _ => none

/-! ### Building rows of pieces -/

/-- Words with a blank after each. -/
def words (ws : List String) : List Piece := ws.flatMap fun w => [.word w, .blank]

def separatedBy (separator : List Piece) : List (List Piece) → List Piece
  | [] => []
  | [ps] => ps
  | ps :: rest => ps ++ separator ++ separatedBy separator rest

def commaSeparated (parts : List (List Piece)) : List Piece :=
  separatedBy [.symbol ",", .blank] parts

def parenthesized (ps : List Piece) : List Piece := .symbol "(" :: ps ++ [.symbol ")"]

/-- A column is written by its name, after the name of its table where the statement has several. -/
class Named (κ : Type) where
  names : κ → List String

def columnPieces [Named κ] (c : κ) : List Piece :=
  separatedBy [.symbol "."] ((Named.names c).map fun name => [.identifier name])

def signed (negative : Bool) (ps : List Piece) : List Piece :=
  if negative then .symbol "-" :: ps else ps

/-- Doubles are written without an exponent, and without a point when they are whole. The two
infinities and the undefined number are written as bare words. -/
def realPieces : Binary64 → List Piece
  | .nan => [.word "NaN"]
  | .number negative rank =>
    if rank.val = Binary64.infinityRank then signed negative [.word "inf"]
    else signed negative [.numeral (String.ofList (Binary64.shortest .up rank).positional)]

def Value.pieces : Value → List Piece
  | .null => [.word "NULL"]
  | .integer n => signed (n < 0) [.numeral (Numeral.natural n.natAbs)]
  | .real x => realPieces x
  | .text s => [.literal s]

/-- The number that a numeral of a statement stands for. -/
def readNumeral (text : String) : Value := (number? text).getD .null

def Value.negated : Value → Value
  | .integer n => .integer (-n)
  | .real x => .real x.neg
  | v => v

/-- What a value has become when the text of a statement is read. -/
def Value.asWritten : Value → Value
  | .real (.number negative rank) =>
    if rank.val = Binary64.infinityRank then .null
    else
      let size := readNumeral (String.ofList (Binary64.shortest .up rank).positional)
      if negative then size.negated else size
  | v => v

def Term.pieces [Named κ] : Term κ → List Piece
  | .column c => columnPieces c
  | .literal v => v.pieces
  | .leading width t =>
    .word "substr" :: parenthesized
      (commaSeparated [t.pieces, [.numeral "1"], [.numeral (Numeral.natural width)]])
  | .asInteger t =>
    .word "CAST" :: parenthesized (t.pieces ++ [.blank, .word "AS", .blank, .word "INTEGER"])
  | .sum a b => a.pieces ++ [.blank, .symbol "+", .blank] ++ b.pieces

/-- A term beside a comparison; a call stands in parentheses there. -/
def Term.operand [Named κ] : Term κ → List Piece
  | .leading width t => parenthesized (Term.leading width t).pieces
  | t => t.pieces

def Comparison.sign : Comparison → String
  | .eq => "="
  | .ne => "<>"
  | .lt => "<"
  | .le => "<="
  | .gt => ">"
  | .ge => ">="

/-- Where a condition stands. -/
inductive Place where
  | alone
  | conjunct
  | disjunct
  deriving DecidableEq, Repr

def parenthesizedIf (needed : Bool) (ps : List Piece) : List Piece :=
  if needed then parenthesized ps else ps

/-- Inside a conjunction or a disjunction a range, a sum and the other connective stand in
parentheses. No value is one of none, so an empty list of values gives a condition that never
holds. -/
def Condition.piecesAt [Named κ] : Place → Condition κ → List Piece
  | place, .compare a op b =>
    let isSum := match a with
      | .sum _ _ => true
      | _ => false
    parenthesizedIf (isSum && place ≠ .alone)
      (a.operand ++ [.blank, .symbol op.sign, .blank] ++ b.operand)
  | place, .between t low high =>
    parenthesizedIf (place ≠ .alone)
      (t.operand ++ .blank :: words ["BETWEEN"] ++ low.pieces ++ .blank :: words ["AND"] ++
        high.pieces)
  | _, .isNull c => columnPieces c ++ [.blank, .word "IS", .blank, .word "NULL"]
  | _, .like c pattern => columnPieces c ++ .blank :: words ["LIKE"] ++ [.literal pattern]
  | _, .oneOf _ [] => [.numeral "1", .blank, .symbol "=", .blank, .numeral "2"]
  | _, .oneOf c (v :: vs) =>
    columnPieces c ++ .blank :: words ["IN"] ++
      parenthesized (commaSeparated ((v :: vs).map Value.pieces))
  | place, .and a b =>
    parenthesizedIf (place = .disjunct)
      (a.piecesAt .conjunct ++ .blank :: words ["AND"] ++ b.piecesAt .conjunct)
  | place, .or a b =>
    parenthesizedIf (place = .conjunct)
      (a.piecesAt .disjunct ++ .blank :: words ["OR"] ++ b.piecesAt .disjunct)

def Condition.pieces [Named κ] (condition : Condition κ) : List Piece := condition.piecesAt .alone

end Footage.Sql
