/-
# Filter.Parser -- filterexpr.cpp: tokens to a program

The recursive descent of the source, one function per grammar level, each
returning the index of the node it built or the first error.  Recursion and loops
run on a fuel that `filterCompile` provides from the length of the text; a parser
out of fuel answers `none`, which `Filter.Correct` shows never happens.
-/
import Clumsy.Filter.Lexer

namespace Clumsy.Filter

set_option autoImplicit false

/-- The parser's state: the current token, the characters behind it and the nodes
built so far. -/
structure Parser where
  cur   : Token
  src   : List Char
  nodes : List Node

/-- `none` is "out of fuel", an error is the source's -1 with `err_` set. -/
abbrev Parsed := Option (Except String (Nat × Parser))

namespace Parsed

/-- Go on with the node just built, unless parsing failed. -/
def andThen (r : Parsed) (k : Nat → Parser → Parsed) : Parsed :=
  match r with
  | none => none
  | some (.error msg) => some (.error msg)
  | some (.ok (i, p)) => k i p

@[simp] theorem andThen_none (k : Nat → Parser → Parsed) : andThen none k = none := rfl

@[simp] theorem andThen_error (msg : String) (k : Nat → Parser → Parsed) :
    andThen (some (.error msg)) k = some (.error msg) := rfl

@[simp] theorem andThen_ok (i : Nat) (p : Parser) (k : Nat → Parser → Parsed) :
    andThen (some (.ok (i, p))) k = k i p := rfl

end Parsed

/-- `_stricmp(text, kw) == 0`. -/
def stricmp (text : List Char) (kw : String) : Bool :=
  text.map Char.toLower == kw.toList.map Char.toLower

/-! ## Tables -/

def keywords : List (String × NodeKind) :=
  [("true", .nTrue), ("false", .nFalse), ("outbound", .nOutbound), ("inbound", .nInbound),
    ("loopback", .nLoopback), ("ip", .nIpv4), ("ipv6", .nIpv6)]

def protos : List (String × UInt32) :=
  [("tcp", 6), ("udp", 17), ("icmp", 1), ("icmpv6", 58)]

def fields : List (String × Field) :=
  [("ip.SrcAddr", .ipSrc), ("ip.DstAddr", .ipDst), ("ip.Protocol", .ipProto),
    ("tcp.SrcPort", .tcpSrcPort), ("tcp.DstPort", .tcpDstPort), ("udp.SrcPort", .udpSrcPort),
    ("udp.DstPort", .udpDstPort)]

/-- The first entry of a table whose name is `word`. -/
def lookup {α : Type} (table : List (String × α)) (word : List Char) : Option α :=
  (table.find? fun entry => stricmp word entry.1).map Prod.snd

def lookupField (word : List Char) : Option Field := lookup fields word

def lookupOp (text : List Char) : Option Op :=
  if text = ['=', '='] ∨ text = ['='] then some .eq
  else if text = ['!', '='] then some .ne
  else if text = ['>', '='] then some .ge
  else if text = ['<', '='] then some .le
  else if text = ['>'] then some .gt
  else if text = ['<'] then some .lt
  else none

/-! ## Helpers -/

namespace Parser

def advance (p : Parser) : Parser :=
  { p with cur := (next p.src).1, src := (next p.src).2 }

def add (n : Node) (p : Parser) : Nat × Parser :=
  (p.nodes.length, { p with nodes := p.nodes ++ [n] })

def isIdent (p : Parser) (kw : String) : Bool :=
  decide (p.cur.kind = .ident) && stricmp p.cur.text kw

def isPunct (p : Parser) (s : String) : Bool :=
  decide (p.cur.kind = .punct) && p.cur.text == s.toList

/-- `advance(); return add(n);`. -/
def accept (n : Node) (p : Parser) : Parsed := some (.ok (p.advance.add n))

/-- A quoted word inside an error message. -/
def quoted (word : List Char) : String := "'" ++ String.ofList word ++ "'"

end Parser

/-- `makeProtoNode`. -/
def protoNode (proto : UInt32) : Node :=
  { kind := .nCmp, field := .ipProto, op := .eq, value := proto }

/-- `field == F_IP_SRC || field == F_IP_DST`. -/
def Field.wantsAddr : Field → Bool
  | .ipSrc | .ipDst => true
  | _ => false

/-- The part of `parsePrimary` behind a field name. -/
def parseComparison (word : List Char) (field : Field) (p : Parser) : Parsed :=
  match lookupOp p.cur.text with
  | none =>
      some (.error ("expected a comparison operator after " ++ Parser.quoted word))
  | some op =>
      if p.cur.kind ≠ .punct then
        some (.error ("expected a comparison operator after " ++ Parser.quoted word))
      else
        let p := p.advance
        if p.cur.kind ≠ .number ∧ p.cur.kind ≠ .ipv4 then
          some (.error ("expected a value after " ++ Parser.quoted word))
        else if field.wantsAddr = true ∧ p.cur.kind ≠ .ipv4 then
          some (.error (Parser.quoted word ++ " needs a dotted IPv4 address"))
        else if field.wantsAddr = false ∧ p.cur.kind = .ipv4 then
          some (.error (Parser.quoted word ++ " needs a number, not an address"))
        else p.accept { kind := .nCmp, field, op, value := p.cur.num }

/-! ## Grammar -/

mutual

def parseOr : Nat → Parser → Parsed
  | 0, _ => none
  | fuel + 1, p => (parseAnd fuel p).andThen fun left p => parseOrLoop fuel left p

/-- `while (isIdent("or") || isPunct("||"))`. -/
def parseOrLoop : Nat → Nat → Parser → Parsed
  | 0, _, _ => none
  | fuel + 1, left, p =>
      if p.isIdent "or" || p.isPunct "||" then
        (parseAnd fuel p.advance).andThen fun right p =>
          let added := p.add { kind := .nOr, left := left, right := right }
          parseOrLoop fuel added.1 added.2
      else some (.ok (left, p))

def parseAnd : Nat → Parser → Parsed
  | 0, _ => none
  | fuel + 1, p => (parseNot fuel p).andThen fun left p => parseAndLoop fuel left p

/-- `while (isIdent("and") || isPunct("&&"))`. -/
def parseAndLoop : Nat → Nat → Parser → Parsed
  | 0, _, _ => none
  | fuel + 1, left, p =>
      if p.isIdent "and" || p.isPunct "&&" then
        (parseNot fuel p.advance).andThen fun right p =>
          let added := p.add { kind := .nAnd, left := left, right := right }
          parseAndLoop fuel added.1 added.2
      else some (.ok (left, p))

def parseNot : Nat → Parser → Parsed
  | 0, _ => none
  | fuel + 1, p =>
      if p.isIdent "not" || p.isPunct "!" then
        (parseNot fuel p.advance).andThen fun operand p =>
          some (.ok (p.add { kind := .nNot, left := operand }))
      else parsePrimary fuel p

def parsePrimary : Nat → Parser → Parsed
  | 0, _ => none
  | fuel + 1, p =>
      if p.isPunct "(" then
        (parseOr fuel p.advance).andThen fun inner p =>
          if p.isPunct ")" then some (.ok (inner, p.advance))
          else some (.error "expected ')'")
      else if p.cur.kind ≠ .ident then
        some (.error (if p.cur.kind = .endOfInput then "unexpected end of expression"
          else "expected a keyword or field, got " ++ Parser.quoted p.cur.text))
      else
        let word := p.cur.text
        match lookup keywords word with
        | some kind => p.accept { kind }
        | none =>
            match lookup protos word with
            | some proto => p.accept (protoNode proto)
            | none =>
                match lookupField word with
                | none => some (.error ("unknown filter term " ++ Parser.quoted word))
                | some field => parseComparison word field p.advance

end

namespace Parser

/-- The constructor: the first token is read ahead. -/
def start (src : List Char) : Parser := { cur := (next src).1, src := (next src).2, nodes := [] }

/-- `parse(&root)`: an expression, and nothing left over. -/
def parse (fuel : Nat) (p : Parser) : Parsed :=
  (parseOr fuel p).andThen fun root p =>
    if p.cur.kind ≠ .endOfInput then some (.error ("unexpected " ++ quoted p.cur.text))
    else some (.ok (root, p))

end Parser

def isBlank (s : List Char) : Bool := s.all isSpace

/-- Enough rounds for a text of this length. -/
def parseFuel (expr : List Char) : Nat := 6 * expr.length + 10

/-- `filterCompile`; the error is what it leaves in `errBuf`. -/
def filterCompile (expr : List Char) : Except String FilterProgram :=
  if isBlank expr then .ok { nodes := [{ kind := .nTrue }], root := 0 }
  else
    match (Parser.start expr).parse (parseFuel expr) with
    | some (.ok (root, p)) => .ok { nodes := p.nodes, root := root }
    | some (.error msg) => .error ("filter syntax error: " ++ msg)
    | none => .error "filter syntax error: invalid expression"

end Clumsy.Filter
