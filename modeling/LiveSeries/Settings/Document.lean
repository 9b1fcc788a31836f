import LiveSeries.Settings

/-!
# Reading settings from a document

A document holds settings in TOML. Only documents of lines `name = integer` can give
settings: a table, another name or a value of another type is an error in each case, so
this reader takes lines of that form, blank lines and comments, and refuses everything else.
-/

namespace LiveSeries

/-- Why a document gives no settings. -/
inductive DocumentError where
  /-- The document is not TOML, or does not describe settings. -/
  | malformed
  | zero (setting : Setting)
  deriving DecidableEq, Repr

/-- The text shown for a setting that is zero; a malformed document has no fixed text. -/
def DocumentError.message : DocumentError → String
  | .malformed => "malformed document"
  | .zero setting => "invalid value for `" ++ setting.name ++ "`: must be > 0"

namespace Document

/-! ## Characters -/

def isBlank (c : Char) : Bool := c == ' ' || c == '\t'

/-- A character that a comment or a quoted name may show as it is. -/
def isPlain (c : Char) : Bool := c == '\t' || (' ' ≤ c && c.toNat != 127)

def isBareName (c : Char) : Bool := c.isAlphanum || c == '_' || c == '-'

/-- The value of a digit in a base up to sixteen. -/
def digit? (base : Nat) (c : Char) : Option Nat :=
  let n := if c.isDigit then c.toNat - '0'.toNat
    else if 'a' ≤ c && c ≤ 'f' then c.toNat - 'a'.toNat + 10
    else if 'A' ≤ c && c ≤ 'F' then c.toNat - 'A'.toNat + 10
    else base
  if n < base then some n else none

/-! ## Integers -/

/-- The number written by digits; between two digits one underscore may stand. -/
def digits? (base : Nat) : Nat → List Char → Option Nat
  | _, [] => none
  | n, [c] => (digit? base c).map fun d => n * base + d
  | n, c :: '_' :: rest => (digit? base c).bind fun d => digits? base (n * base + d) rest
  | n, c :: rest => (digit? base c).bind fun d => digits? base (n * base + d) rest

/-- A decimal number; only zero itself starts with a zero. -/
def decimal? : List Char → Option Nat
  | ['0'] => some 0
  | '0' :: _ => none
  | cs => digits? 10 0 cs

/-- An integer: decimal with an optional sign, or unsigned in base sixteen, eight or two. -/
def integer? : List Char → Option Int
  | '0' :: 'x' :: cs => (digits? 16 0 cs).map Int.ofNat
  | '0' :: 'o' :: cs => (digits? 8 0 cs).map Int.ofNat
  | '0' :: 'b' :: cs => (digits? 2 0 cs).map Int.ofNat
  | '+' :: cs => (decimal? cs).map Int.ofNat
  | '-' :: cs => (decimal? cs).map fun n => -(n : Int)
  | cs => (decimal? cs).map Int.ofNat

/-! ## Names -/

/-- The character with a number written in base sixteen. -/
def scalar? (cs : List Char) : Option Char :=
  (cs.foldlM (fun n c => (digit? 16 c).map fun d => n * 16 + d) 0).bind fun n =>
    if h : n.isValidChar then some (Char.ofNatAux n h) else none

/-- The name up to the closing quote, and what follows the quote. Between double quotes a
backslash starts an escape. -/
def quoted? (quote : Char) : List Char → Option (List Char × List Char)
  | [] => none
  | '\\' :: cs =>
    let put (c : Char) (rest : Option (List Char × List Char)) := rest.map fun (n, r) => (c :: n, r)
    if quote == '\'' then put '\\' (quoted? quote cs)
    else match cs with
      | 'b' :: r => put '\x08' (quoted? quote r)
      | 't' :: r => put '\t' (quoted? quote r)
      | 'n' :: r => put '\n' (quoted? quote r)
      | 'f' :: r => put '\x0c' (quoted? quote r)
      | 'r' :: r => put '\r' (quoted? quote r)
      | 'e' :: r => put '\x1b' (quoted? quote r)
      | '"' :: r => put '"' (quoted? quote r)
      | '\\' :: r => put '\\' (quoted? quote r)
      | 'x' :: a :: b :: r => (scalar? [a, b]).bind fun c => put c (quoted? quote r)
      | 'u' :: a :: b :: c :: d :: r =>
        (scalar? [a, b, c, d]).bind fun c => put c (quoted? quote r)
      | 'U' :: a :: b :: c :: d :: e :: f :: g :: h :: r =>
        (scalar? [a, b, c, d, e, f, g, h]).bind fun c => put c (quoted? quote r)
      | _ => none
  | c :: cs =>
    if c == quote then some ([], cs)
    else if isPlain c then (quoted? quote cs).map fun (n, r) => (c :: n, r)
    else none

/-- A bare or quoted name, and what follows it. -/
def name? : List Char → Option (List Char × List Char)
  | '"' :: cs => quoted? '"' cs
  | '\'' :: cs => quoted? '\'' cs
  | cs => if (cs.takeWhile isBareName).isEmpty then none
    else some (cs.takeWhile isBareName, cs.dropWhile isBareName)

/-! ## Lines -/

/-- Nothing but blanks and perhaps a comment. -/
def isRest (cs : List Char) : Bool :=
  match cs.dropWhile isBlank with
  | [] => true
  | '#' :: comment => comment.all isPlain
  | _ => false

/-- What a line says: nothing, or an integer for a name. -/
def line? (cs : List Char) : Option (Option (String × Int)) :=
  if isRest cs then some none
  else do
    let (name, afterName) ← name? (cs.dropWhile isBlank)
    match afterName.dropWhile isBlank with
    | '=' :: afterEquals =>
      let value := afterEquals.dropWhile isBlank
      let isValue := fun c => !(isBlank c || c == '#')
      let n ← integer? (value.takeWhile isValue)
      if isRest (value.dropWhile isValue) then some (some (String.ofList name, n)) else none
    | _ => none

/-- The lines of a text. A line ends in a line feed, which a carriage return may precede. -/
def lines : List Char → List (List Char)
  | [] => [[]]
  | '\n' :: cs => [] :: lines cs
  | '\r' :: '\n' :: cs => [] :: lines cs
  | c :: cs =>
    match lines cs with
    | [] => [[c]]
    | l :: ls => (c :: l) :: ls

/-- What the lines of a document say, in their order. A mark of the byte order at the start is
skipped. -/
def bindings? (text : String) : Option (List (String × Int)) :=
  let cs := match text.toList with
    | '\uFEFF' :: cs => cs
    | cs => cs
  ((lines cs).mapM line?).map fun said => said.filterMap id

end Document

namespace Settings

/-- The numbers a document gives for the settings: each is given once, and fits. -/
def numbers? (bindings : List (String × Int)) : Option (List (Setting × Nat)) :=
  bindings.foldlM (fun given (name, n) => do
    let setting ← Setting.ofName? name
    if given.any (fun g => g.1 == setting) then none
    else if n < 0 || n.toNat > setting.greatest then none
    else some (given ++ [(setting, n.toNat)])) []

/-- The number given for a setting must not be zero. -/
def checked (given : List (Setting × Nat)) (setting : Setting) (otherwise : Nat) :
    Except DocumentError Nat :=
  match given.lookup setting with
  | none => .ok otherwise
  | some 0 => .error (.zero setting)
  | some n => .ok n

/-- Reads a document. What it does not mention keeps its default. -/
def ofDocument (text : String) : Except DocumentError Settings :=
  match (Document.bindings? text).bind numbers? with
  | none => .error .malformed
  | some given => do
    let timeout ← checked given .lockTimeout 1000
    let retries ← checked given .readTries 1024
    let chunk ← checked given .pageSize 4096
    return ⟨timeout * 1000000, retries, chunk⟩

end Settings

end LiveSeries
