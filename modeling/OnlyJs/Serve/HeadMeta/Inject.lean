import Mathlib.Data.List.Sort
import OnlyJs.Bridge.Value
import OnlyJs.Lib.LetterCase
import OnlyJs.Lib.Text

/-!
# Metadata in the head of a page

A page is served with the tags of its metadata in its head. The tags of the page that say the
same are taken out first, since a reader believes the first one. Tags are found by a scanner of
its own, for which a tag ends at the first `>`.
-/

namespace OnlyJs.Serve.HeadMeta

open Bridge (Value)
open Lib

structure Meta where
  entries : List (String × Value)
  distinct : (entries.map Prod.fst).Nodup

def Meta.text (obj : Meta) (key : String) : Option String :=
  (obj.entries.lookup key).bind Value.asStr

def replaceChar (char : Char) (by_ : String) (text : List Char) : List Char :=
  text.flatMap fun other => if other = char then by_.toList else [other]

def escapeHtml (text : List Char) : List Char :=
  replaceChar '\'' "&#39;" (replaceChar '"' "&quot;" (replaceChar '>' "&gt;"
    (replaceChar '<' "&lt;" (replaceChar '&' "&amp;" text))))

def escapeChar (char : Char) : List Char :=
  if char = '&' then "&amp;".toList
  else if char = '<' then "&lt;".toList
  else if char = '>' then "&gt;".toList
  else if char = '"' then "&quot;".toList
  else if char = '\'' then "&#39;".toList
  else [char]

theorem escape_chars (text : List Char) : escapeHtml text = text.flatMap escapeChar := by
  unfold escapeHtml replaceChar
  rw [List.flatMap_assoc, List.flatMap_assoc, List.flatMap_assoc, List.flatMap_assoc]
  apply List.flatMap_congr
  intro char _
  unfold escapeChar
  split_ifs with amp less greater quote apostrophe
  · decide
  · rw [less]
    decide
  · rw [greater]
    decide
  · rw [quote]
    decide
  · rw [apostrophe]
    decide
  · simp [less, greater, quote, apostrophe]

def isMarkup (char : Char) : Bool := char = '<' || char = '>' || char = '"' || char = '\''

theorem escape_char_plain (char : Char) : ∀ other ∈ escapeChar char, isMarkup other = false := by
  have written (text : List Char) (plain : (text.all fun other => !isMarkup other) = true)
      (other : Char) (member : other ∈ text) : isMarkup other = false :=
    Bool.not_eq_true' _ ▸ List.all_eq_true.mp plain other member
  unfold escapeChar
  split_ifs with amp less greater quote apostrophe
  · exact written _ (by decide)
  · exact written _ (by decide)
  · exact written _ (by decide)
  · exact written _ (by decide)
  · exact written _ (by decide)
  · intro other member
    rw [List.mem_singleton] at member
    rw [member, isMarkup, decide_eq_false less, decide_eq_false greater, decide_eq_false quote,
      decide_eq_false apostrophe]
    rfl

theorem escape_plain {text : List Char} {char : Char} (member : char ∈ escapeHtml text) :
    char ≠ '<' ∧ char ≠ '>' ∧ char ≠ '"' ∧ char ≠ '\'' := by
  rw [escape_chars, List.mem_flatMap] at member
  obtain ⟨other, _, inside⟩ := member
  have plain := escape_char_plain other char inside
  unfold isMarkup at plain
  rw [Bool.or_eq_false_iff, Bool.or_eq_false_iff, Bool.or_eq_false_iff, decide_eq_false_iff_not,
    decide_eq_false_iff_not, decide_eq_false_iff_not, decide_eq_false_iff_not] at plain
  exact ⟨plain.1.1.1, plain.1.1.2, plain.1.2, plain.2⟩

def titleTag (text : String) : List Char :=
  "<title>".toList ++ escapeHtml text.toList ++ "</title>\n".toList

def metaTag (attr : String) (key : List Char) (content : String) : List Char :=
  "<meta ".toList ++ attr.toList ++ "=\"".toList ++ key ++ "\" content=\"".toList ++
    escapeHtml content.toList ++ "\">\n".toList

def canonicalTag (href : String) : List Char :=
  "<link rel=\"canonical\" href=\"".toList ++ escapeHtml href.toList ++ "\">\n".toList

def isOpenGraph (key : String) : Bool := "og:".toList.isPrefixOf key.toList

def isSocial (key : String) : Bool := isOpenGraph key || "twitter:".toList.isPrefixOf key.toList

def socialTag (entry : String × Value) : List Char :=
  entry.2.asStr.toList.flatMap
    (metaTag (if isOpenGraph entry.1 then "property" else "name") (escapeHtml entry.1.toList))

def renderMetaTags (obj : Meta) : List Char :=
  (obj.text "title").toList.flatMap titleTag ++
    (obj.text "description").toList.flatMap (metaTag "name" "description".toList) ++
      (obj.text "canonical").toList.flatMap canonicalTag ++
        ((obj.entries.filter fun entry => isSocial entry.1).insertionSort
          fun left right => left.1 ≤ right.1).flatMap socialTag

def eqIgnoreCase (left right : List Char) : Bool :=
  left.map Char.toLower == right.map Char.toLower

def sameLetter (left right : Char) : Bool := decide (LetterCase.SameLetter left right)

def findCi (text : List Char) (needle : String) : Option Nat :=
  Text.find sameLetter needle.toList text

def findText (text : List Char) (needle : String) : Option Nat :=
  Text.find (· == ·) needle.toList text

def isSpace (char : Char) : Bool :=
  char = ' ' || char = '\t' || char = '\n' || char = '\x0c' || char = '\r'

def isNameChar (char : Char) : Bool := char.isAlphanum || char = '-'

/-- The value behind a word: none if the word has no `=` behind it. A value without an end is
no value. -/
def valueAfter (text : List Char) : Option (Option (List Char)) :=
  match text.dropWhile isSpace with
  | '=' :: rest =>
    match rest.dropWhile isSpace with
    | [] => some none
    | first :: rest =>
      if first = '"' || first = '\'' then some ((Text.splitOnce first rest).map Prod.fst)
      else some (some ((first :: rest).takeWhile fun char => !isSpace char))
  | _ => none

/-- `boundary` says whether a word may start here. -/
def attrScan (key : List Char) : Bool → List Char → Option (List Char)
  | _, [] => none
  | boundary, char :: rest =>
    let further := attrScan key (!isNameChar char) rest
    if boundary && Text.starts sameLetter key (char :: rest) then
      (valueAfter ((char :: rest).drop key.length)).getD further
    else further

def attrValue (attrs : List Char) (key : String) : Option (List Char) :=
  if key.toList.isEmpty then none else attrScan key.toList true attrs

inductive Conflict where
  | title
  | canonicalLink
  | metaTag (key : String)
deriving DecidableEq

def Conflict.covers (conflict : Conflict) (name attrs : List Char) : Bool :=
  match conflict with
  | title => eqIgnoreCase name "title".toList
  | canonicalLink => eqIgnoreCase name "link".toList &&
      (attrValue attrs "rel").any fun value => eqIgnoreCase value "canonical".toList
  | metaTag key => eqIgnoreCase name "meta".toList &&
      ["name", "property"].any fun attr =>
        (attrValue attrs attr).any fun value => eqIgnoreCase value key.toList

def conflictKeys (obj : Meta) : List Conflict :=
  ((obj.text "title").map fun _ => .title).toList ++
    ((obj.text "description").map fun _ => .metaTag "description").toList ++
      ((obj.text "canonical").map fun _ => .canonicalLink).toList ++
        ((obj.entries.filter fun entry => isSocial entry.1 && (obj.text entry.1).isSome).map
          fun entry => .metaTag entry.1)

/-- `len` is the length of the whole element. Nothing is covered by the name `!`. -/
structure Element where
  name : List Char
  attrs : List Char
  len : Nat
deriving DecidableEq

def Element.never (len : Nat) : Element := ⟨['!'], [], len⟩

def isOpaque (name : List Char) : Bool :=
  eqIgnoreCase name "script".toList || eqIgnoreCase name "style".toList

/-- Where the element ends whose start tag ends at `gt`. -/
def closedLen (text name : List Char) (gt : Nat) : Nat :=
  match Text.find sameLetter ('<' :: '/' :: name) (text.drop (gt + 1)) with
  | some k =>
    match findText (text.drop (gt + 1 + k)) ">" with
    | some g => gt + 1 + k + g + 1
    | none => gt + 1
  | none => gt + 1

def startsText (text : List Char) (needle : String) : Bool := needle.toList.isPrefixOf text

def elementAt (text : List Char) : Option Element :=
  if !startsText text "<" then none
  else if startsText text "<!--" then
    (findText text "-->").map fun i => Element.never (i + 3)
  else if startsText text "<!" || startsText text "<?" || startsText text "</" then
    (findText text ">").map fun i => Element.never (i + 1)
  else
    let name := (text.drop 1).takeWhile isNameChar
    if name.isEmpty then (findText text ">").map fun i => Element.never (i + 1)
    else
      (findText text ">").map fun gt =>
        let attrs := (text.take gt).drop (name.length + 1)
        if isOpaque name || eqIgnoreCase name "title".toList then
          ⟨if isOpaque name then ['!'] else name, attrs, closedLen text name gt⟩
        else ⟨name, attrs, gt + 1⟩

def stripFrom (wants : List Conflict) : Nat → List Char → List Char
  | 0, head => head
  | fuel + 1, head =>
    match findText head "<" with
    | none => head
    | some lt =>
      head.take lt ++
        match elementAt (head.drop lt) with
        | none => head.drop lt
        | some el =>
          (if wants.any fun want => want.covers el.name el.attrs then []
            else (head.drop lt).take el.len) ++
            stripFrom wants fuel ((head.drop lt).drop el.len)

def stripConflicts (head : List Char) (wants : List Conflict) : List Char :=
  if wants.isEmpty then head else stripFrom wants head.length head

def headStart (html : List Char) : Option Nat :=
  match findCi html "<head" with
  | some i => (findText (html.drop i) ">").map fun gt => i + gt + 1
  | none => some 0

def injectHead (html : List Char) (obj : Meta) : List Char :=
  let tags := renderMetaTags obj
  if tags.isEmpty then html
  else
    match findCi html "</head>" with
    | none => html
    | some headEnd =>
      match headStart html with
      | none => html
      | some start =>
        if headEnd < start then html
        else
          html.take start ++
            stripConflicts ((html.take headEnd).drop start) (conflictKeys obj) ++
            tags ++ html.drop headEnd

end OnlyJs.Serve.HeadMeta
