import BundlePlan.Toml.Draft
import BundlePlan.Toml.Token

/-! Reading a document: its tokens form statements, and the statements, one after another, fill
the draft of the table that the document stands for. -/
namespace BundlePlan.Toml

/-- How deep values may nest, and how many parts a dotted key or a header may have. -/
def nestingLimit : Nat := 80

inductive Statement
  | table (path : List String)
  | element (path : List String)
  | assign (path : List String) (value : Value)

def isBareKeyChar (c : Char) : Bool := c.isAlphanum || c == '_' || c == '-'

def keyPart? : Token → Option String
  | .word chars => if chars.all isBareKeyChar then some (String.ofList chars) else none
  | .text content false => some content
  | _ => none

/-- Reads the parts of a key with the dots between them, after those in `path`; `pending` tells
that a part has to come next. -/
def keyParts (path : List String) (pending : Bool) :
    List Token → Except Fault (List String × List Token)
  | .blank _ :: rest => keyParts path pending rest
  | token :: rest =>
    if pending then
      match keyPart? token with
      | some part => keyParts (path ++ [part]) false rest
      | none => .error .expectedKey
    else if token = .dot then keyParts path true rest
    else .ok (path, token :: rest)
  | [] => if pending then .error .expectedKey else .ok (path, [])

def key (tokens : List Token) : Except Fault (List String × List Token) := do
  let (path, rest) ← keyParts [] true tokens
  if path.length > nestingLimit then throw .nestedTooDeep
  return (path, rest)

def skipBlank : List Token → List Token
  | .blank _ :: rest => skipBlank rest
  | rest => rest

/-- Inside brackets and braces, lines and comments are layout too. -/
def skipLayout : List Token → List Token
  | .blank _ :: rest => skipLayout rest
  | .newline :: rest => skipLayout rest
  | .comment :: rest => skipLayout rest
  | rest => rest

/-- The items up to `close`, with a comma between any two and perhaps one after the last; `left`
bounds their number by that of the tokens. -/
def items {α : Type} (item : List Token → Except Fault (α × List Token)) (close : Token) :
    Nat → List Token → Except Fault (List α × List Token)
  | 0, _ => .error .expectedSeparator
  | left + 1, tokens =>
    match skipLayout tokens with
    | [] => .error .expectedSeparator
    | token :: rest =>
      if token = close then .ok ([], rest)
      else do
        let (first, rest) ← item (token :: rest)
        match skipLayout rest with
        | [] => throw .expectedSeparator
        | token :: rest =>
          if token = close then return ([first], rest)
          else if token = .comma then
            let (others, rest) ← items item close left rest
            return (first :: others, rest)
          else throw .expectedSeparator

/-- The spelling of a scalar: words and dots, and the blanks before further words. So a date and
its time are one scalar, and most others with blanks are none. -/
def spelling : List Token → List Char × List Token
  | .word chars :: rest => let (more, rest) := spelling rest; (chars ++ more, rest)
  | .dot :: rest => let (more, rest) := spelling rest; ('.' :: more, rest)
  | .blank run :: .word chars :: rest =>
    let (more, rest) := spelling rest
    (run ++ chars ++ more, rest)
  | rest => ([], rest)

def assignment (skip : List Token → List Token)
    (value : List Token → Except Fault (Value × List Token)) (tokens : List Token) :
    Except Fault ((List String × Value) × List Token) := do
  let (path, rest) ← key tokens
  match skip rest with
  | .equals :: rest =>
    let (value, rest) ← value (skip rest)
    return ((path, value), rest)
  | _ => throw .expectedSeparator

def inlineTable (assignments : List (List String × Value)) : Except Fault Value := do
  let draft ← assignments.foldlM (fun draft (path, value) => Draft.assign path value draft) []
  return .table (Draft.values draft)

def value (depth : Nat) (tokens : List Token) : Except Fault (Value × List Token) :=
  match tokens with
  | .text content _ :: rest => .ok (.string content, rest)
  | .openBracket :: rest =>
    match depth with
    | 0 => .error .nestedTooDeep
    | depth + 1 => do
      let (elements, rest) ← items (value depth) .closeBracket rest.length rest
      return (.array elements, rest)
  | .openBrace :: rest =>
    match depth with
    | 0 => .error .nestedTooDeep
    | depth + 1 => do
      let (assignments, rest) ←
        items (assignment skipLayout (value depth)) .closeBrace rest.length rest
      return (← inlineTable assignments, rest)
  | tokens =>
    match spelling tokens with
    | ([], _) => .error .expectedValue
    | (chars, rest) =>
      match scalar? chars with
      | some scalar => .ok (scalar, rest)
      | none => .error (.invalidScalar (String.ofList chars))

def lineEnd (tokens : List Token) : Except Fault (List Token) :=
  match skipBlank tokens with
  | [] => .ok []
  | .newline :: rest => .ok rest
  | .comment :: [] => .ok []
  | .comment :: .newline :: rest => .ok rest
  | _ => .error .expectedLineEnd

def statement (tokens : List Token) : Except Fault (Option Statement × List Token) :=
  match tokens with
  | [] => .ok (none, [])
  | .newline :: _ => .ok (none, tokens)
  | .comment :: _ => .ok (none, tokens)
  | .openBracket :: .openBracket :: rest => do
    let (path, rest) ← key rest
    match rest with
    | .closeBracket :: .closeBracket :: rest => return (some (.element path), rest)
    | _ => throw .expectedSeparator
  | .openBracket :: rest => do
    let (path, rest) ← key rest
    match rest with
    | .closeBracket :: rest => return (some (.table path), rest)
    | _ => throw .expectedSeparator
  | tokens => do
    let ((path, value), rest) ← assignment skipBlank (value nestingLimit) tokens
    return (some (.assign path value), rest)

def statements : Nat → List Token → Except Fault (List Statement)
  | _, [] => .ok []
  | 0, _ => .error .expectedLineEnd
  | left + 1, tokens => do
    let (first, rest) ← statement (skipBlank tokens)
    let others ← statements left (← lineEnd rest)
    return first.toList ++ others

/-- What a statement does to the draft; `section` is the path of the last header. -/
def Statement.apply (state : List String × Draft) :
    Statement → Except Fault (List String × Draft)
  | .table path => do return (path, ← Draft.openTable path state.2)
  | .element path => do return (path, ← Draft.openElement path state.2)
  | .assign path value => do
    return (state.1, ← Draft.change false state.1 (Draft.assign path value) state.2)

def skipMark : List Char → List Char
  | '\ufeff' :: rest => rest
  | rest => rest

def parse (document : String) : Except Fault (List (String × Value)) := do
  let tokens ← tokens (skipMark document.toList)
  let statements ← statements (tokens.length + 1) tokens
  let (_, draft) ← statements.foldlM Statement.apply ([], [])
  return Draft.values draft

end BundlePlan.Toml
