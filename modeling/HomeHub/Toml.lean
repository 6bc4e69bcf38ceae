import HomeHub.Json.Basic
import HomeHub.Number.Nearest
import HomeHub.Text.Hex
import HomeHub.Timestamp

/-!
# TOML documents

`Toml.parse?` reads a document as a JSON object. A table may be defined once, by a header or by
dotted keys, and a key may be set once; whatever breaks that is no document. A date or a time reads
as an object with its text.
-/

namespace HomeHub.Toml

/-! ### Tables under construction -/

/-- How a table came to be. -/
inductive Origin where
  /-- By a header of its own. -/
  | header
  /-- By the header of a table inside it. -/
  | implied
  /-- By a dotted key. -/
  | dotted
  deriving DecidableEq

inductive Item where
  /-- A value that is not added to any more. -/
  | value (j : Json)
  | table (origin : Origin) (members : List (String × Item))
  /-- Tables of an array; the last is open. -/
  | tables (closed : List Json) (last : List (String × Item))

abbrev Members := List (String × Item)

mutual

def Item.toJson : Item → Json
  | .value j => j
  | .table _ members => .obj (Pairs.ofList (membersJson members))
  | .tables closed last => .arr (closed ++ [.obj (Pairs.ofList (membersJson last))])

def membersJson : List (String × Item) → List (String × Json)
  | [] => []
  | m :: r => memberJson m :: membersJson r

def memberJson : String × Item → String × Json
  | (key, item) => (key, item.toJson)

end

def find? (key : String) (ms : Members) : Option Item := (ms.find? (·.1 == key)).map (·.2)

def put (key : String) (item : Item) (ms : Members) : Members :=
  if ms.any (·.1 == key) then ms.map fun m => if m.1 == key then (key, item) else m
  else ms ++ [(key, item)]

/-- Opens the table of a header. -/
def openTable : List String → Members → Option Members
  | [], _ => none
  | [key], ms =>
    match find? key ms with
    | none => some (put key (.table .header []) ms)
    | some (.table .implied items) => some (put key (.table .header items) ms)
    | some _ => none
  | key :: path, ms =>
    match find? key ms with
    | none => (openTable path []).map fun items => put key (.table .implied items) ms
    | some (.table origin items) =>
      (openTable path items).map fun items => put key (.table origin items) ms
    | some (.tables closed last) =>
      (openTable path last).map fun last => put key (.tables closed last) ms
    | some (.value _) => none

/-- Opens one more table of an array. -/
def openTables : List String → Members → Option Members
  | [], _ => none
  | [key], ms =>
    match find? key ms with
    | none => some (put key (.tables [] []) ms)
    | some (.tables closed last) =>
      some (put key (.tables (closed ++ [.obj (Pairs.ofList (membersJson last))]) []) ms)
    | some _ => none
  | key :: path, ms =>
    match find? key ms with
    | none => (openTables path []).map fun items => put key (.table .implied items) ms
    | some (.table origin items) =>
      (openTables path items).map fun items => put key (.table origin items) ms
    | some (.tables closed last) =>
      (openTables path last).map fun last => put key (.tables closed last) ms
    | some (.value _) => none

/-- Sets a dotted key. A table that a header made is not added to, and one that a header implied
only passed through. -/
def setDotted (value : Json) : List String → Members → Option Members
  | [], _ => none
  | [key], ms => if ms.any (·.1 == key) then none else some (put key (.value value) ms)
  | key :: path, ms =>
    match find? key ms with
    | none => (setDotted value path []).map fun items => put key (.table .dotted items) ms
    | some (.table .dotted items) =>
      (setDotted value path items).map fun items => put key (.table .dotted items) ms
    | some (.table .implied items) =>
      if path.length = 1 then none
      else (setDotted value path items).map fun items => put key (.table .implied items) ms
    | some (.tables closed last) =>
      if path.length = 1 then none
      else (setDotted value path last).map fun last => put key (.tables closed last) ms
    | some _ => none

/-- Sets a dotted key in the table that a header opened. -/
def setUnder (value : Json) (keys : List String) : List String → Members → Option Members
  | [], ms => setDotted value keys ms
  | key :: path, ms =>
    match find? key ms with
    | some (.table origin items) =>
      (setUnder value keys path items).map fun items => put key (.table origin items) ms
    | some (.tables closed last) =>
      (setUnder value keys path last).map fun last => put key (.tables closed last) ms
    | _ => none

/-! ### Characters -/

abbrev Rest := List Char

def skipSpaces (cs : Rest) : Rest := cs.dropWhile fun c => c == ' ' || c == '\t'

/-- Characters that strings and comments may hold as they are. -/
def isPlain (c : Char) : Bool := c == '\t' || (32 ≤ c.toNat && c.toNat != 127)

def newline? : Rest → Option Rest
  | '\n' :: r => some r
  | '\r' :: '\n' :: r => some r
  | _ => none

/-- Skips a comment. -/
def skipComment (cs : Rest) : Rest :=
  match cs with
  | '#' :: r => r.dropWhile isPlain
  | cs => cs

/-- Nothing but a comment may follow on the line. -/
def endLine? (cs : Rest) : Option Rest :=
  match skipComment (skipSpaces cs) with
  | [] => some []
  | r => newline? r

/-- Skips blanks, line breaks and comments. -/
def skipLines : Nat → Rest → Rest
  | 0, cs => cs
  | fuel + 1, cs =>
    let cs := skipComment (skipSpaces cs)
    match newline? cs with
    | some r => skipLines fuel r
    | none => cs

/-! ### Strings -/

/-- The character of a code point written in hexadecimal digits. -/
def codePoint? (count : Nat) (cs : Rest) : Option (Char × Rest) := do
  if cs.length < count then none
  let n ← Hex.number? (cs.take count)
  if n < 0xD800 || (0xDFFF < n && n ≤ 0x10FFFF) then return (Char.ofNat n, cs.drop count) else none

/-- What follows a backslash. -/
def escape? : Rest → Option (Char × Rest)
  | 'b' :: r => some ('\x08', r)
  | 't' :: r => some ('\t', r)
  | 'n' :: r => some ('\n', r)
  | 'f' :: r => some ('\x0c', r)
  | 'r' :: r => some ('\r', r)
  | '"' :: r => some ('"', r)
  | '\\' :: r => some ('\\', r)
  | 'u' :: r => codePoint? 4 r
  | 'U' :: r => codePoint? 8 r
  | _ => none

/-- The rest of a basic string after its opening quote. -/
def basic? : Nat → Rest → Option (List Char × Rest)
  | 0, _ => none
  | _, [] => none
  | fuel + 1, c :: r =>
    if c = '"' then some ([], r)
    else if c = '\\' then do
      let (d, r) ← escape? r
      let (s, r) ← basic? fuel r
      return (d :: s, r)
    else if isPlain c then do
      let (s, r) ← basic? fuel r
      return (c :: s, r)
    else none

/-- The rest of a literal string after its opening quote. -/
def literal? : Rest → Option (List Char × Rest)
  | [] => none
  | c :: r =>
    if c = '\'' then some ([], r)
    else if isPlain c then (literal? r).map fun (s, r) => (c :: s, r)
    else none

/-- At the end of a string of several lines, up to two quotes before the closing three belong to
it. -/
def closing? (quote : Char) (cs : Rest) : Option (List Char × Rest) :=
  let n := (cs.takeWhile (· == quote)).length
  if n < 3 then none
  else if n ≤ 5 then some (List.replicate (n - 3) quote, cs.drop n)
  else some ([quote, quote], cs.drop 5)

/-- Skips blanks and line breaks. -/
def skipGap : Rest → Rest
  | ' ' :: r => skipGap r
  | '\t' :: r => skipGap r
  | '\n' :: r => skipGap r
  | '\r' :: '\n' :: r => skipGap r
  | r => r

/-- The rest of a string of several lines; escapes count if `escapes` says so. -/
def lines? (quote : Char) (escapes : Bool) : Nat → Rest → Option (List Char × Rest)
  | 0, _ => none
  | _, [] => none
  | fuel + 1, c :: r =>
    match closing? quote (c :: r) with
    | some (s, r) => some (s, r)
    | none =>
      if escapes && c = '\\' then
        match newline? (skipSpaces r) with
        | some r => lines? quote escapes fuel (skipGap r)
        | none => do
          let (d, r) ← escape? r
          let (s, r) ← lines? quote escapes fuel r
          return (d :: s, r)
      else match newline? (c :: r) with
        | some r => do
          let (s, r) ← lines? quote escapes fuel r
          return ('\n' :: s, r)
        | none =>
          if isPlain c then do
            let (s, r) ← lines? quote escapes fuel r
            return (c :: s, r)
          else none

/-- A line break right after the opening quotes is left out. -/
def trimFirstBreak (cs : Rest) : Rest := (newline? cs).getD cs

def string? (cs : Rest) : Option (String × Rest) :=
  let text (r : Option (List Char × Rest)) := r.map fun (s, r) => (String.ofList s, r)
  match cs with
  | '"' :: '"' :: '"' :: r => text (lines? '"' true (r.length + 1) (trimFirstBreak r))
  | '\'' :: '\'' :: '\'' :: r => text (lines? '\'' false (r.length + 1) (trimFirstBreak r))
  | '"' :: r => text (basic? (r.length + 1) r)
  | '\'' :: r => text (literal? r)
  | _ => none

/-! ### Keys -/

def isBareChar (c : Char) : Bool :=
  ('a' ≤ c && c ≤ 'z') || ('A' ≤ c && c ≤ 'Z') || ('0' ≤ c && c ≤ '9') || c == '_' || c == '-'

def simpleKey? (cs : Rest) : Option (String × Rest) :=
  match cs with
  | '"' :: r => (basic? (r.length + 1) r).map fun (s, r) => (String.ofList s, r)
  | '\'' :: r => (literal? r).map fun (s, r) => (String.ofList s, r)
  | cs =>
    let key := cs.takeWhile isBareChar
    if key.isEmpty then none else some (String.ofList key, cs.drop key.length)

/-- The number of parts of a key, and of values inside each other, that is already too large. -/
def depthLimit : Nat := 80

/-- Up to `most` keys joined by points, with blanks around them. -/
def dottedKeys? : (most : Nat) → Rest → Option (List String × Rest)
  | 0, _ => none
  | most + 1, cs => do
    let (key, r) ← simpleKey? (skipSpaces cs)
    match skipSpaces r with
    | '.' :: r =>
      let (keys, r) ← dottedKeys? most r
      return (key :: keys, r)
    | r => return ([key], r)

/-- A key of fewer parts than the limit. -/
def dottedKey? : Rest → Option (List String × Rest) := dottedKeys? (depthLimit - 1)

/-! ### Numbers and dates -/

/-- Digits with single underscores between them. -/
def digitRun? (digit? : Char → Option Nat) (cs : Rest) : Option (List Nat × Rest) :=
  let rec more : Rest → List Nat × Rest
    | '_' :: c :: r =>
      match digit? c with
      | some d => let (ds, r) := more r; (d :: ds, r)
      | none => ([], '_' :: c :: r)
    | c :: r =>
      match digit? c with
      | some d => let (ds, r) := more r; (d :: ds, r)
      | none => ([], c :: r)
    | [] => ([], [])
  match cs with
  | c :: r =>
    match digit? c with
    | some d => let (ds, r) := more r; some (d :: ds, r)
    | none => none
  | [] => none

def digitBelow (base : Nat) (c : Char) : Option Nat := (Hex.value? c).filter (· < base)

def valueOf (base : Nat) (ds : List Nat) : Nat := ds.foldl (fun n d => n * base + d) 0

def integer? (n : Int) (r : Rest) : Option (Json × Rest) :=
  if Json.minInt ≤ n ∧ n ≤ Json.maxInt then some (.int n, r) else none

/-- An integer with a mark of its base. -/
def marked? (base : Nat) (cs : Rest) : Option (Json × Rest) := do
  let (ds, r) ← digitRun? (digitBelow base) cs
  integer? (valueOf base ds) r

def fraction? (cs : Rest) : Option (List Nat × Rest) :=
  match cs with
  | '.' :: r => digitRun? (digitBelow 10) r
  | cs => some ([], cs)

def exponent? (cs : Rest) : Option (Option Int × Rest) :=
  let run (negative : Bool) (r : Rest) := (digitRun? (digitBelow 10) r).map fun (ds, r) =>
    (some (if negative then -Int.ofNat (valueOf 10 ds) else Int.ofNat (valueOf 10 ds)), r)
  let body (r : Rest) := match r with
    | '+' :: r => run false r
    | '-' :: r => run true r
    | r => run false r
  match cs with
  | 'e' :: r => body r
  | 'E' :: r => body r
  | cs => some (none, cs)

def floatJson (x : Float) : Json := .num (.float x)

/-- A decimal number after its sign. One above all finite numbers is refused, one below them is minus
infinity. -/
def decimal? (negative : Bool) (cs : Rest) : Option (Json × Rest) := do
  let (whole, r) ← digitRun? (digitBelow 10) cs
  if whole.length > 1 && whole.head? = some 0 then none
  let (fraction, s) ← fraction? r
  let (exponent, s) ← exponent? s
  if fraction.isEmpty && exponent.isNone then
    let n := Int.ofNat (valueOf 10 whole)
    integer? (if negative then -n else n) r
  else
    let x := Decimal.scaled negative (valueOf 10 (whole ++ fraction))
      (exponent.getD 0 - fraction.length)
    if x == Binary64.infinity false then none else return (floatJson x, s)

def special? (negative : Bool) : Rest → Option (Json × Rest)
  | 'i' :: 'n' :: 'f' :: r => some (floatJson (Binary64.infinity negative), r)
  | 'n' :: 'a' :: 'n' :: r => some (floatJson (0.0 / 0.0), r)
  | _ => none

def number? (cs : Rest) : Option (Json × Rest) :=
  match cs with
  | '+' :: r => special? false r <|> decimal? false r
  | '-' :: r => special? true r <|> decimal? true r
  | '0' :: 'x' :: r => marked? 16 r
  | '0' :: 'o' :: r => marked? 8 r
  | '0' :: 'b' :: r => marked? 2 r
  | cs => special? false cs <|> decimal? false cs

/-- A time of day with seconds. -/
def timeEnd? (cs : Rest) : Option Rest := do
  let (hour, r) ← Timestamp.number? 2 2 cs
  let (minute, r) ← Timestamp.number? 2 2 (← Timestamp.char? ':' r)
  let (second, r) ← Timestamp.number? 2 2 (← Timestamp.char? ':' r)
  let (_, r) ← Timestamp.fraction? r
  if hour ≤ 23 && minute ≤ 59 && second ≤ 60 then return r else none

/-- An optional time zone, less than a day ahead or behind. -/
def zoneEnd? (cs : Rest) : Option Rest :=
  let offset (r : Rest) : Option Rest := do
    let (hours, r) ← Timestamp.number? 2 2 r
    let (minutes, r) ← Timestamp.number? 2 2 (← Timestamp.char? ':' r)
    if hours ≤ 23 && minutes ≤ 59 then return r else none
  match cs with
  | 'Z' :: r => some r
  | 'z' :: r => some r
  | '+' :: r => offset r
  | '-' :: r => offset r
  | cs => some cs

def dateEnd? (cs : Rest) : Option Rest := do
  let (year, r) ← Timestamp.number? 4 4 cs
  let (month, r) ← Timestamp.number? 2 2 (← Timestamp.char? '-' r)
  let (day, r) ← Timestamp.number? 2 2 (← Timestamp.char? '-' r)
  if 1 ≤ month && month ≤ 12 && 1 ≤ day && day ≤ Timestamp.daysInMonth year month then
    match r with
    | 'T' :: t | 't' :: t => zoneEnd? (← timeEnd? t)
    | ' ' :: t =>
      match timeEnd? t with
      | some r => zoneEnd? r
      | none => return r
    | r => return r
  else none

/-- A date, a time, or both. -/
def date? (cs : Rest) : Option (Json × Rest) := do
  let r ← match cs with
    | _ :: _ :: _ :: _ :: '-' :: _ => dateEnd? cs
    | _ :: _ :: ':' :: _ => timeEnd? cs
    | _ => none
  return (.obj [("date", .str (String.ofList (cs.take (cs.length - r.length))))], r)

/-! ### Values -/

mutual

/-- A value, in which others may be nested `room` levels deep. -/
def value? : (room fuel : Nat) → Rest → Option (Json × Rest)
  | _, 0, _ => none
  | room, fuel + 1, cs =>
    match cs with
    | '"' :: _ | '\'' :: _ => (string? cs).map fun (s, r) => (.str s, r)
    | 't' :: 'r' :: 'u' :: 'e' :: r => some (.bool true, r)
    | 'f' :: 'a' :: 'l' :: 's' :: 'e' :: r => some (.bool false, r)
    | '[' :: r =>
      match room with
      | 0 => none
      | room + 1 => (array? room fuel r).map fun (items, r) => (.arr items, r)
    | '\x7b' :: r =>
      match room with
      | 0 => none
      | room + 1 =>
        match skipSpaces r with
        | '\x7d' :: r => some (.obj [], r)
        | r => (inline? room fuel r []).map fun (ms, r) => (.obj (Pairs.ofList (membersJson ms)), r)
    | cs => date? cs <|> number? cs

/-- The items of an array up to its closing bracket. -/
def array? : (room fuel : Nat) → Rest → Option (List Json × Rest)
  | _, 0, _ => none
  | room, fuel + 1, cs =>
    match skipLines cs.length cs with
    | ']' :: r => some ([], r)
    | cs => do
      let (item, r) ← value? room fuel cs
      match skipLines r.length r with
      | ',' :: r =>
        let (items, r) ← array? room fuel r
        return (item :: items, r)
      | ']' :: r => return ([item], r)
      | _ => none

/-- The pairs of an inline table up to its closing brace. -/
def inline? : (room fuel : Nat) → Rest → Members → Option (Members × Rest)
  | _, 0, _, _ => none
  | room, fuel + 1, cs, ms => do
    let (keys, r) ← dottedKey? cs
    match r with
    | '=' :: r =>
      let (value, r) ← value? room fuel (skipSpaces r)
      let ms ← setDotted value keys ms
      match skipSpaces r with
      | ',' :: r => inline? room fuel r ms
      | '\x7d' :: r => return (ms, r)
      | _ => none
    | _ => none

end

/-! ### Documents -/

/-- Reads line after line into the table that the last header opened. -/
def document? : Nat → Rest → List String → Members → Option Members
  | 0, _, _, _ => none
  | fuel + 1, cs, path, ms =>
    match skipLines cs.length cs with
    | [] => some ms
    | '[' :: '[' :: r => do
      let (keys, r) ← dottedKey? r
      match r with
      | ']' :: ']' :: r => document? fuel (← endLine? r) keys (← openTables keys ms)
      | _ => none
    | '[' :: r => do
      let (keys, r) ← dottedKey? r
      match r with
      | ']' :: r => document? fuel (← endLine? r) keys (← openTable keys ms)
      | _ => none
    | cs => do
      let (keys, r) ← dottedKey? cs
      match r with
      | '=' :: r =>
        let (value, r) ← value? (depthLimit - 1) (r.length + 1) (skipSpaces r)
        document? fuel (← endLine? r) path (← setUnder value keys path ms)
      | _ => none

/-- The object that a document describes. A byte order mark at its start is skipped. -/
def parse? (s : String) : Option Json :=
  let cs := match s.toList with
    | '\ufeff' :: r => r
    | cs => cs
  (document? (cs.length + 1) cs [] []).map fun ms => .obj (Pairs.ofList (membersJson ms))

end HomeHub.Toml
