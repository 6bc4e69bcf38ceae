import HomeHub.Json.Basic
import HomeHub.Text.Hex
import HomeHub.Text.Utf8

/-!
# Reading JSON texts

`Document.read` never fails: it takes a text apart as far as it goes and leaves each fault where it
stands. So whoever reads a typed value from the document meets faults in the order of the text, and
never meets those inside parts that it skips: numbers out of range, lone surrogates and deep nesting
count only where the value is wanted. `Node.value` wants all of it.
-/

namespace HomeHub.Json

/-- The key of a member. -/
structure Key where
  /-- None stands for a text that has lone surrogates or stray bytes. -/
  text : Option String
  /-- Whether it is written with escapes. -/
  escaped : Bool := false
  deriving Inhabited

/-- A value as written. -/
inductive Node where
  | null
  | bool (b : Bool)
  /-- None stands for a number out of range. -/
  | num (n : Option Number)
  /-- None stands for a text that has lone surrogates or stray bytes. -/
  | str (s : Option String)
  /-- An array that is not `closed` breaks off after its items. -/
  | arr (items : List Node) (closed : Bool)
  | obj (members : List (Key × Node)) (closed : Bool)
  /-- No value stands here. -/
  | broken
  deriving Inhabited

/-- A text: a value, and whether nothing but blanks follows it. -/
structure Document where
  root : Node
  ended : Bool

/-- Why no value was read: the text is no JSON text, or its value is of another shape. -/
inductive Fault where
  | malformed
  | mismatch
  deriving DecidableEq, Repr

/-! ### Characters -/

open Utf8 (Glyph)

/-- The blanks between tokens. -/
def isGap : Glyph → Bool
  | .char c => c = ' ' || c = '\t' || c = '\r' || c = '\n'
  | .stray => false

def skipGaps (gs : List Glyph) : List Glyph := gs.dropWhile isGap

def digit? : Glyph → Option Nat
  | .char c => if '0' ≤ c && c ≤ '9' then some (c.toNat - 48) else none
  | .stray => none

/-- The longest run of digits. -/
def takeDigits : List Glyph → List Nat × List Glyph
  | [] => ([], [])
  | g :: r =>
    match digit? g with
    | some d => let (ds, r) := takeDigits r; (d :: ds, r)
    | none => ([], g :: r)

/-! ### Numbers -/

/-- The optional exponent; none if one begins without digits. -/
def readExponent (gs : List Glyph) : Option (Option (Bool × List Nat) × List Glyph) :=
  let body (down : Bool) (r : List Glyph) :=
    match takeDigits r with
    | ([], _) => none
    | (ds, r) => some (some (down, ds), r)
  let signed (r : List Glyph) :=
    match r with
    | .char '+' :: r => body false r
    | .char '-' :: r => body true r
    | r => body false r
  match gs with
  | .char 'e' :: r => signed r
  | .char 'E' :: r => signed r
  | gs => some (none, gs)

/-- The optional fraction; none if one begins without digits. -/
def readFraction (gs : List Glyph) : Option (Option (List Nat) × List Glyph) :=
  match gs with
  | .char '.' :: r =>
    match takeDigits r with
    | ([], _) => none
    | (ds, r) => some (some ds, r)
  | gs => some (none, gs)

/-- A number without leading zeros. -/
def readNumeral (gs : List Glyph) : Option (Numeral × List Glyph) :=
  let (negative, r) := match gs with
    | .char '-' :: r => (true, r)
    | gs => (false, gs)
  match takeDigits r with
  | ([], _) => none
  | (0 :: _ :: _, _) => none
  | (whole, r) => do
    let (fraction, r) ← readFraction r
    let (exponent, r) ← readExponent r
    return (⟨negative, whole, fraction, exponent⟩, r)

/-! ### Strings -/

/-- A piece of a string: a code point, surrogates included, or stray bytes. -/
inductive Piece where
  | point (n : Nat) (escaped : Bool)
  | stray

/-- The code point of the escape that follows a backslash. -/
def readEscape : List Glyph → Option (Nat × List Glyph)
  | .char '"' :: r => some (34, r)
  | .char '\\' :: r => some (92, r)
  | .char '/' :: r => some (47, r)
  | .char 'b' :: r => some (8, r)
  | .char 'f' :: r => some (12, r)
  | .char 'n' :: r => some (10, r)
  | .char 'r' :: r => some (13, r)
  | .char 't' :: r => some (9, r)
  | .char 'u' :: .char a :: .char b :: .char c :: .char d :: r =>
    (Hex.number? [a, b, c, d]).map (·, r)
  | _ => none

/-- The pieces up to the closing quote; none if the string breaks off or holds a raw control
character. -/
def readPieces : Nat → List Glyph → Option (List Piece × List Glyph)
  | 0, _ => none
  | _, [] => none
  | fuel + 1, .stray :: r => do
    let (ps, r) ← readPieces fuel r
    return (.stray :: ps, r)
  | fuel + 1, .char c :: r =>
    if c = '"' then some ([], r)
    else if c = '\\' then do
      let (n, r) ← readEscape r
      let (ps, r) ← readPieces fuel r
      return (.point n true :: ps, r)
    else if c.toNat < 32 then none
    else do
      let (ps, r) ← readPieces fuel r
      return (.point c.toNat false :: ps, r)

/-- The text of the pieces, surrogate pairs joined; none for lone surrogates and strays. -/
def assemble : List Piece → Option (List Char)
  | [] => some []
  | .stray :: _ => none
  | .point n _ :: r =>
    if n < 0xD800 || 0xDFFF < n then (assemble r).map (Char.ofNat n :: ·)
    else if 0xDC00 ≤ n then none
    else match r with
      | .point m _ :: r =>
        if 0xDC00 ≤ m && m ≤ 0xDFFF then
          (assemble r).map (Char.ofNat (0x10000 + (n - 0xD800) * 0x400 + (m - 0xDC00)) :: ·)
        else none
      | _ => none

def Piece.isEscaped : Piece → Bool
  | .point _ escaped => escaped
  | .stray => false

/-- What follows an opening quote. -/
def readString (gs : List Glyph) : Option (Key × List Glyph) :=
  (readPieces (gs.length + 1) gs).map fun (ps, r) =>
    (⟨(assemble ps).map String.ofList, ps.any Piece.isEscaped⟩, r)

/-! ### Values -/

mutual

/-- A value and what follows it; nothing follows a fault. -/
def readNode : Nat → List Glyph → Node × Option (List Glyph)
  | 0, _ => (.broken, none)
  | fuel + 1, gs =>
    match skipGaps gs with
    | .char 'n' :: .char 'u' :: .char 'l' :: .char 'l' :: r => (.null, some r)
    | .char 't' :: .char 'r' :: .char 'u' :: .char 'e' :: r => (.bool true, some r)
    | .char 'f' :: .char 'a' :: .char 'l' :: .char 's' :: .char 'e' :: r => (.bool false, some r)
    | .char '"' :: r =>
      match readString r with
      | some (s, r) => (.str s.text, some r)
      | none => (.broken, none)
    | .char '[' :: r =>
      match skipGaps r with
      | .char ']' :: r => (.arr [] true, some r)
      | r =>
        let (items, rest) := readItems fuel r
        (.arr items rest.isSome, rest)
    | .char '\x7b' :: r =>
      match skipGaps r with
      | .char '\x7d' :: r => (.obj [] true, some r)
      | r =>
        let (members, rest) := readMembers fuel r
        (.obj members rest.isSome, rest)
    | gs =>
      match readNumeral gs with
      | some (n, r) => (.num n.value?, some r)
      | none => (.broken, none)

/-- The items of an array up to its closing bracket. -/
def readItems : Nat → List Glyph → List Node × Option (List Glyph)
  | 0, _ => ([], none)
  | fuel + 1, gs =>
    match readNode fuel gs with
    | (node, none) => ([node], none)
    | (node, some r) =>
      match skipGaps r with
      | .char ']' :: r => ([node], some r)
      | .char ',' :: r =>
        match skipGaps r with
        | .char ']' :: _ => ([node], none)
        | r =>
          let (items, rest) := readItems fuel r
          (node :: items, rest)
      | _ => ([node], none)

/-- The members of an object up to its closing brace. -/
def readMembers : Nat → List Glyph → List (Key × Node) × Option (List Glyph)
  | 0, _ => ([], none)
  | fuel + 1, gs =>
    match skipGaps gs with
    | .char '"' :: r =>
      match readString r with
      | none => ([], none)
      | some (key, r) =>
        match skipGaps r with
        | .char ':' :: r =>
          match readNode fuel r with
          | (node, none) => ([(key, node)], none)
          | (node, some r) =>
            match skipGaps r with
            | .char '\x7d' :: r => ([(key, node)], some r)
            | .char ',' :: r =>
              let (members, rest) := readMembers fuel r
              ((key, node) :: members, rest)
            | _ => ([(key, node)], none)
        | _ => ([(key, .broken)], none)
    | _ => ([], none)

end

/-- Takes a text apart. Each step of the reading uses up a character at least every other time, so
the bound is never met. -/
def Document.read (gs : List Glyph) : Document :=
  match readNode (2 * gs.length + 2) gs with
  | (root, some r) => ⟨root, (skipGaps r).isEmpty⟩
  | (root, none) => ⟨root, false⟩

def Document.ofText (s : String) : Document := .read (Utf8.glyphs s)

def Document.ofBytes (bytes : List UInt8) : Document := .read (Utf8.decode bytes)

/-- Reads the root and then demands the end of the text. -/
def Document.finish {α : Type} (d : Document) (read : Node → Except Fault α) : Except Fault α := do
  let x ← read d.root
  if d.ended then return x else throw .malformed

/-! ### Whole values -/

/-- The deepest nesting of arrays and objects that is read. -/
def maxDepth : Nat := 127

mutual

/-- The value of a node that stands inside at most `maxDepth - depth` containers. Of members with
equal keys the last counts. -/
def Node.value : Nat → Node → Except Fault Json
  | _, .null => .ok .null
  | _, .bool b => .ok (.bool b)
  | _, .num (some n) => .ok (.num n)
  | _, .str (some s) => .ok (.str s)
  | 0, .arr _ _ => .error .malformed
  | depth + 1, .arr items closed => do
    let items ← Node.values depth items
    if closed then return .arr items else throw .malformed
  | 0, .obj _ _ => .error .malformed
  | depth + 1, .obj members closed => do
    let members ← Node.memberValues depth members
    if closed then return .obj (Pairs.ofList members) else throw .malformed
  | _, _ => .error .malformed
termination_by structural _ node => node

def Node.values : Nat → List Node → Except Fault (List Json)
  | _, [] => .ok []
  | depth, node :: r => do
    let x ← node.value depth
    let xs ← Node.values depth r
    return x :: xs
termination_by structural _ nodes => nodes

def Node.memberValues : Nat → List (Key × Node) → Except Fault (List (String × Json))
  | _, [] => .ok []
  | depth, m :: r => do
    let x ← Node.memberValue depth m
    let xs ← Node.memberValues depth r
    return x :: xs
termination_by structural _ members => members

def Node.memberValue : Nat → Key × Node → Except Fault (String × Json)
  | depth, (key, node) => do
    match key.text with
    | none => throw .malformed
    | some key =>
      let x ← node.value depth
      return (key, x)
termination_by structural _ m => m

end

/-- The value that a text denotes. -/
def ofText (s : String) : Except Fault Json := (Document.ofText s).finish (Node.value maxDepth)

/-! ### Nodes of values -/

mutual

/-- A value as a node without faults. -/
def toNode : Json → Node
  | .null => .null
  | .bool b => .bool b
  | .num n => .num (some n)
  | .str s => .str (some s)
  | .arr items => .arr (toNodes items) true
  | .obj members => .obj (toMemberNodes members) true

def toNodes : List Json → List Node
  | [] => []
  | j :: r => j.toNode :: toNodes r

def toMemberNodes : List (String × Json) → List (Key × Node)
  | [] => []
  | m :: r => toMemberNode m :: toMemberNodes r

def toMemberNode : String × Json → Key × Node
  | (key, j) => ({ text := some key }, j.toNode)

end

end HomeHub.Json
