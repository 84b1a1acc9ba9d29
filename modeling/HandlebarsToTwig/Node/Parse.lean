import HandlebarsToTwig.Lexeme.Strip
import HandlebarsToTwig.Node
import HandlebarsToTwig.Options

/-! Building the tree from lexemes by recursive descent. The parser keeps the lexemes it has not
read yet, also after a fault, so that it can be asked again. -/
namespace HandlebarsToTwig

/-- The block whose body is being read: its helper, and where its opening tag stands. -/
structure Enclosing where
  helper : Text
  offset : Nat
  deriving DecidableEq, Repr

/-- The nodes that were read or the fault that ended the reading, the lexemes left over, and the
number of blocks that count as open then. -/
structure Reading where
  result : Except Error (List Node)
  rest : List Lexeme
  depth : Nat

namespace Reading

/-- Readings that leave at most `n` lexemes. -/
abbrev Within (n : Nat) := { r : Reading // r.rest.length ≤ n }

def Within.weaken {m n : Nat} (r : Within m) (h : m ≤ n) : Within n :=
  ⟨r.1, Nat.le_trans r.2 h⟩

/-- Puts a node in front of those that were read. -/
def Within.cons {n : Nat} (node : Node) (r : Within n) : Within n :=
  ⟨{ r.1 with result := r.1.result.map (node :: ·) }, r.2⟩

/-- Ends the reading of a body in front of `rest`. -/
def stop (result : Except Error (List Node)) (rest : List Lexeme) (depth : Nat) :
    Within (rest.length + 1) :=
  ⟨⟨result, rest, depth⟩, Nat.le_succ _⟩

/-- The body of the enclosing block ends with the template. -/
def atEnd : Option Enclosing → Except Error (List Node)
  | none => .ok []
  | some e => .error (.tag (.unclosedBlock e.helper) e.offset)

/-- The body of the enclosing block meets a closing tag. -/
def atClose (helper : Text) (offset : Nat) : Option Enclosing → Except Error (List Node)
  | none => .error (.tag (.strayClose helper) offset)
  | some e =>
    if e.helper = helper then .ok []
    else .error (.tag (.mismatchedClose e.helper helper) offset)

/-- Reads the body of the enclosing block with its closing tag, or at top level everything.
`depth` counts the open blocks, of which there may be `limit`. The count goes up in front of the body
of a block, and down behind it whether the body could be read or not. -/
def body (limit depth : Nat) (enclosing : Option Enclosing) :
    (lexemes : List Lexeme) → Within lexemes.length
  | [] => ⟨⟨atEnd enclosing, [], depth⟩, Nat.le_refl _⟩
  | l :: ls =>
    match l.token with
    | .text value => ((body limit depth enclosing ls).cons (.text value)).weaken (Nat.le_succ _)
    | .reference name =>
      ((body limit depth enclosing ls).cons (.reference name)).weaken (Nat.le_succ _)
    | .opening helper args =>
      match BlockKind.ofName? helper with
      | none => stop (.error (.unsupported helper)) ls depth
      | some kind =>
        if limit ≤ depth then stop (.error (.tooDeep limit)) ls depth
        else
          match body limit (depth + 1) (some ⟨helper, l.offset⟩) ls with
          | ⟨⟨.error e, rest, raised⟩, h⟩ => ⟨⟨.error e, rest, raised - 1⟩, Nat.le_succ_of_le h⟩
          | ⟨⟨.ok children, rest, raised⟩, h⟩ =>
            ((body limit (raised - 1) enclosing rest).cons (.block kind args children)).weaken
              (Nat.le_succ_of_le h)
    | .closing helper => stop (atClose helper l.offset enclosing) ls depth
    | .alternative => stop (.error (.unsupported "else".toList)) ls depth
    | .comment _ => stop (.error (.unsupported ['!'])) ls depth
    | .unescaped _ => stop (.error (.unsupported ['&'])) ls depth
    | .inclusion _ => stop (.error (.unsupported ['>'])) ls depth
    | .inverse _ => stop (.error (.unsupported ['^'])) ls depth
termination_by lexemes => lexemes.length
decreasing_by all_goals (simp_all only [List.length_cons]; omega)

end Reading

/-- A parser in use: the lexemes still to read, the count of open blocks, and its limit. -/
structure Parser where
  inUse ::
  pending : List Lexeme
  depth : Nat
  maxDepth : Nat
  deriving DecidableEq, Repr

namespace Parser

/-- A parser that has read nothing yet. -/
def mk (pending : List Lexeme) (maxDepth : Nat) : Parser := ⟨pending, 0, maxDepth⟩

def ofSource (source : Text) (maxDepth : Nat) : Except Error Parser :=
  (Lexeme.ofSource source).map (mk · maxDepth)

/-- Reads a whole template from the pending lexemes. After a fault, the lexemes up to the one at
fault are gone. -/
def parse (p : Parser) : Except Error (List Node) × Parser :=
  let r := (Reading.body p.maxDepth p.depth none p.pending).1
  (r.result, { p with pending := r.rest, depth := r.depth })

end Parser

/-- The tree of a template whose blocks nest at most `maxDepth` deep. -/
def Node.ofSource (source : Text) (maxDepth : Nat) : Except Error (List Node) := do
  (← Parser.ofSource source maxDepth).parse.1

end HandlebarsToTwig
