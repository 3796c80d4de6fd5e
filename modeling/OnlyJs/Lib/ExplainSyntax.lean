import Mathlib.Algebra.Order.Ring.Int
import Mathlib.Data.List.Basic

/-!
# The head of an EXPLAIN statement

PostgreSQL and MySQL read the words behind `EXPLAIN` as options, up to the statement that is
explained. White space and comments may stand between any two words.
-/

namespace OnlyJs.Lib.ExplainSyntax

set_option autoImplicit false

inductive Server where
  | postgres
  | mySql
deriving DecidableEq

section Words

/-- What the space between two words is made of. -/
inductive Gap where
  | blank
  | line
  | block (depth : Nat)

def isBlank (c : Char) : Bool := c = ' ' || 0x09 ≤ c.toNat && c.toNat ≤ 0x0d

/-- A line comment of MySQL needs a blank behind its two dashes. -/
def beginsLine (server : Server) (rest : List Char) : Bool :=
  server = .postgres || rest.head?.all isBlank

/-- Block comments nest in PostgreSQL; `#`, by its code, begins a comment in MySQL. -/
def skip (server : Server) : Gap → List Char → List Char
  | _, [] => []
  | .line, c :: rest => if c = '\n' then skip server .blank rest else skip server .line rest
  | .block depth, '*' :: '/' :: rest =>
    match depth with
    | 0 => skip server .blank rest
    | depth + 1 => skip server (.block depth) rest
  | .block depth, '/' :: '*' :: rest =>
    match server with
    | .postgres => skip server (.block (depth + 1)) rest
    | .mySql => skip server (.block depth) ('*' :: rest)
  | .block depth, _ :: rest => skip server (.block depth) rest
  | .blank, '-' :: '-' :: rest =>
    if beginsLine server rest then skip server .line rest else '-' :: '-' :: rest
  | .blank, '/' :: '*' :: rest => skip server (.block 0) rest
  | .blank, c :: rest =>
    if isBlank c then skip server .blank rest
    else if server = .mySql ∧ c = '\x23' then skip server .line rest
    else c :: rest

def isWordStart (c : Char) : Bool := c.isAlpha || c = '_' || 0x80 ≤ c.toNat

def isWordChar (c : Char) : Bool := isWordStart c || c.isDigit || c = '$'

/-- The first word, in lower case, and the text behind it. -/
def word (server : Server) (text : List Char) : Option (List Char × List Char) :=
  match skip server .blank text with
  | [] => none
  | c :: rest =>
    if isWordStart c then
      some ((c :: rest.takeWhile isWordChar).map Char.toLower, rest.dropWhile isWordChar)
    else none

/-- The text behind a keyword. -/
def keyword (server : Server) (name : String) (text : List Char) : Option (List Char) :=
  (word server text).bind fun read => if read.1 = name.toList then some read.2 else none

end Words

section Options

inductive Argument where
  | number (negative : Bool) (digits : List Char)
  | text (chars : List Char)
deriving DecidableEq

structure Setting where
  name : List Char
  argument : Option Argument
deriving DecidableEq

/-- The text up to a closing mark; a doubled mark stands for itself. -/
def quotation (mark : Char) : List Char → Option (List Char × List Char)
  | [] => none
  | [c] => if c = mark then some ([], []) else none
  | c :: d :: rest =>
    if c = mark then
      if d = mark then (quotation mark rest).map fun read => (mark :: read.1, read.2)
      else some ([], d :: rest)
    else (quotation mark (d :: rest)).map fun read => (c :: read.1, read.2)

/-- The reserved words that a query in parentheses begins with. -/
def queryWords : List (List Char) := ["select".toList, "with".toList, "table".toList]

def analyzeName : List Char := "analyze".toList

/-- The name of an option; the one with two spellings has one name. A double quote is given
by its code. -/
def optionName (text : List Char) : Option (List Char × List Char) :=
  match skip .postgres .blank text with
  | '\x22' :: rest => quotation '\x22' rest
  | other =>
    (word .postgres other).bind fun read =>
      if queryWords.contains read.1 then none
      else if read.1 = "analyse".toList then some (analyzeName, read.2)
      else some read

def isNumberChar (c : Char) : Bool := c.isDigit || c = '.'

def number (negative : Bool) (text : List Char) : Option Argument × List Char :=
  match text.takeWhile isNumberChar with
  | [] => (none, text)
  | digits => (some (.number negative digits), text.dropWhile isNumberChar)

/-- The argument of an option, if it has one. -/
def optionArgument (text : List Char) : Option Argument × List Char :=
  match skip .postgres .blank text with
  | '\x22' :: rest =>
    match quotation '\x22' rest with
    | some read => (some (.text read.1), read.2)
    | none => (none, text)
  | '\x27' :: rest =>
    match quotation '\x27' rest with
    | some read => (some (.text read.1), read.2)
    | none => (none, text)
  | '+' :: rest => number false (skip .postgres .blank rest)
  | '-' :: rest => number true (skip .postgres .blank rest)
  | other =>
    match word .postgres other with
    | some read => (some (.text read.1), read.2)
    | none => number false other

/-- The options up to the closing parenthesis; `fuel` bounds their number. -/
def optionList : Nat → List Char → Option (List Setting × List Char)
  | 0, _ => none
  | fuel + 1, text =>
    (optionName text).bind fun name =>
      let argument := optionArgument name.2
      match skip .postgres .blank argument.2 with
      | ',' :: more =>
        (optionList fuel more).map fun others =>
          (⟨name.1, argument.1⟩ :: others.1, others.2)
      | ')' :: more => some ([⟨name.1, argument.1⟩], more)
      | _ => none

def postgresOptions (text : List Char) : Option (List Setting × List Char) :=
  match (keyword .postgres "analyze" text).or (keyword .postgres "analyse" text) with
  | some rest =>
    match keyword .postgres "verbose" rest with
    | some left => some ([⟨analyzeName, none⟩, ⟨"verbose".toList, none⟩], left)
    | none => some ([⟨analyzeName, none⟩], rest)
  | none =>
    match keyword .postgres "verbose" text with
    | some rest => some ([⟨"verbose".toList, none⟩], rest)
    | none =>
      match skip .postgres .blank text with
      | '(' :: rest => optionList (rest.length + 1) rest
      | _ => none

def formatOption (text : List Char) : Option (List Setting × List Char) :=
  (keyword .mySql "format" text).bind fun rest =>
    match skip .mySql .blank rest with
    | '=' :: more =>
      (word .mySql more).map fun read => ([⟨"format".toList, some (.text read.1)⟩], read.2)
    | _ => none

def mySqlOptions (text : List Char) : Option (List Setting × List Char) :=
  match keyword .mySql "analyze" text with
  | some rest =>
    match formatOption rest with
    | some (settings, left) => some (⟨analyzeName, none⟩ :: settings, left)
    | none => some ([⟨analyzeName, none⟩], rest)
  | none => formatOption text

/-- What stands between `EXPLAIN` and the statement. -/
def options : Server → List Char → Option (List Setting × List Char)
  | .postgres => postgresOptions
  | .mySql => mySqlOptions

/-- The options of a text that begins with `EXPLAIN`, and what it explains. -/
def explain (server : Server) (text : List Char) : Option (List Setting × List Char) :=
  (keyword server "explain" text).map fun rest => (options server rest).getD ([], rest)

/-- No argument, a true one or the number one. -/
def Setting.on (setting : Setting) : Bool :=
  match setting.argument with
  | none => true
  | some (.number negative digits) => !negative && digits.dropWhile (· = '0') = ['1']
  | some (.text chars) =>
    ["true".toList, "on".toList].contains (chars.map Char.toLower)

/-- The last setting of an option counts. -/
def analyzes (settings : List Setting) : Bool :=
  (settings.filter fun setting => setting.name = analyzeName).getLast?.any Setting.on

/-- The statement inside all the `EXPLAIN`s in front of it; `fuel` bounds their number. -/
def innermostFrom (server : Server) : Nat → List Char → List Char
  | 0, text => text
  | fuel + 1, text =>
    match explain server text with
    | some (_, rest) => innermostFrom server fuel rest
    | none => text

def innermost (server : Server) (text : List Char) : List Char :=
  innermostFrom server text.length text

end Options

end OnlyJs.Lib.ExplainSyntax
