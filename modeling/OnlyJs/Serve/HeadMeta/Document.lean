import Mathlib.Data.List.Infix
import OnlyJs.Serve.HeadMeta.Inject

/-!
# Pages as trees

A page with a head is a text, the tag that opens the head, the tags, elements, comments and
texts in it, the tag that closes it, and a text. What the metadata should do to a page is said
of the tree.
-/

namespace OnlyJs.Serve.HeadMeta

open List

open Bridge (Value)
open Lib

inductive AttrValue where
  | quoted (quote : Char) (text : List Char)
  | bare (text : List Char)
deriving DecidableEq

def AttrValue.raw : AttrValue → List Char
  | quoted _ text => text
  | bare text => text

def AttrValue.text : AttrValue → List Char
  | quoted quote text => quote :: (text ++ [quote])
  | bare text => text

def AttrValue.isBare : AttrValue → Bool
  | quoted _ _ => false
  | bare _ => true

def isBareChar (char : Char) : Bool :=
  !isSpace char && ['"', '\'', '=', '<', '>', '\x60'].all (· ≠ char)

def AttrValue.valid : AttrValue → Bool
  | quoted quote text => (quote = '"' || quote = '\'') && !text.contains quote
  | bare text => !text.isEmpty && text.all isBareChar

/-- A value and the white space around its `=`. -/
structure Given where
  before : List Char
  after : List Char
  value : AttrValue
deriving DecidableEq

def Given.text (given : Given) : List Char :=
  given.before ++ '=' :: (given.after ++ given.value.text)

def Given.valid (given : Given) : Bool :=
  given.before.all isSpace && given.after.all isSpace && given.value.valid

structure Attr where
  space : List Char
  name : List Char
  given : Option Given
deriving DecidableEq

def Attr.isNamed (name : List Char) (attr : Attr) : Bool := eqIgnoreCase attr.name name

@[grind =]
def Attr.text (attr : Attr) : List Char :=
  attr.space ++ (attr.name ++ attr.given.elim [] Given.text)

def isAttrChar (char : Char) : Bool :=
  !isSpace char && ['"', '\'', '<', '>', '/', '='].all (· ≠ char)

@[grind =]
def Attr.valid (attr : Attr) : Bool :=
  !attr.space.isEmpty && attr.space.all isSpace && !attr.name.isEmpty &&
    attr.name.all isAttrChar && attr.given.all Given.valid

def isName (name : List Char) : Bool :=
  (name.head?.any Char.isAlpha) && name.all isNameChar

structure StartTag where
  name : List Char
  attrs : List Attr
  gap : List Char
  slash : Bool
deriving DecidableEq

@[grind =]
def StartTag.inner (tag : StartTag) : List Char :=
  tag.attrs.flatMap Attr.text ++ (tag.gap ++ if tag.slash then ['/'] else [])

@[grind =]
def StartTag.text (tag : StartTag) : List Char := '<' :: (tag.name ++ (tag.inner ++ ['>']))

def StartTag.endsBare (tag : StartTag) : Bool :=
  tag.attrs.getLast?.any fun attr => attr.given.any fun given => given.value.isBare

/-- A value without quotes does not run into the `/` of the tag. -/
@[grind =]
def StartTag.valid (tag : StartTag) : Bool :=
  isName tag.name && tag.attrs.all Attr.valid && tag.gap.all isSpace &&
    decide (tag.attrs.Pairwise fun first second => eqIgnoreCase first.name second.name = false) &&
    !(tag.slash && tag.gap.isEmpty && tag.endsBare)

def StartTag.attr (tag : StartTag) (name : String) : Option (List Char) :=
  (tag.attrs.find? (Attr.isNamed name.toList)).bind fun attr =>
    attr.given.map fun given => given.value.raw

structure EndTag where
  name : List Char
  gap : List Char
deriving DecidableEq

def EndTag.text (tag : EndTag) : List Char := '<' :: '/' :: (tag.name ++ (tag.gap ++ ['>']))

def EndTag.valid (tag : EndTag) : Bool := isName tag.name && tag.gap.all isSpace

inductive Node where
  | text (content : List Char)
  | comment (content : List Char)
  | declaration (mark : Char) (content : List Char)
  | close (stop : EndTag)
  | tag (start : StartTag)
  | element (start : StartTag) (content : List Char) (stop : EndTag)
deriving DecidableEq

@[grind =]
def Node.print : Node → List Char
  | .text content => content
  | .comment content => "<!--".toList ++ (content ++ "-->".toList)
  | .declaration mark content => '<' :: mark :: (content ++ ['>'])
  | .close stop => stop.text
  | .tag start => start.text
  | .element start content stop => start.text ++ (content ++ stop.text)

def isRaw (name : List Char) : Bool := isOpaque name || eqIgnoreCase name "title".toList

def closesHere (name text : List Char) : Bool :=
  Text.starts sameLetter ('<' :: '/' :: name) text &&
    (text.drop (name.length + 2)).head?.any fun char => isSpace char || char = '/' || char = '>'

@[grind =]
def Node.valid : Node → Bool
  | .text content => !content.contains '<'
  | .comment content =>
    decide (Text.Clear (· == ·) "-->".toList ("<!--".toList ++ content) "-->".toList) &&
      decide (Text.Clear (· == ·) "--!>".toList content "-->".toList)
  | .declaration mark content =>
    (mark = '?' || mark = '!' && !startsText content "--") && !content.contains '>'
  | .close stop => stop.valid && !eqIgnoreCase stop.name "head".toList
  | .tag start => start.valid && !isRaw start.name
  | .element start content stop =>
    start.valid && isRaw start.name && stop.valid && eqIgnoreCase stop.name start.name &&
      content.tails.all fun rest =>
        rest.isEmpty || !closesHere start.name (rest ++ stop.text)

structure Document where
  prolog : List Char
  opening : StartTag
  nodes : List Node
  closing : EndTag
  epilog : List Char
  opens : (opening.valid && eqIgnoreCase opening.name "head".toList) = true
  closes : (closing.valid && eqIgnoreCase closing.name "head".toList) = true
  valid : nodes.all Node.valid = true

def Document.print (page : Document) : List Char :=
  page.prolog ++ (page.opening.text ++ (page.nodes.flatMap Node.print ++
    (page.closing.text ++ page.epilog)))

inductive Kind where
  | title
  | canonical
  | named (key : String)
deriving DecidableEq

def kindOf (key : String) : Option Kind :=
  if key = "title" then some .title
  else if key = "canonical" then some .canonical
  else if key = "description" || isSocial key then some (.named key)
  else none

def Meta.kinds (obj : Meta) : List (Kind × String) :=
  obj.entries.filterMap fun entry =>
    entry.2.asStr.bind fun text => (kindOf entry.1).map fun kind => (kind, text)

def plainAttr (name : String) (value : List Char) : Attr :=
  ⟨[' '], name.toList, some ⟨[], [], .quoted '"' value⟩⟩

def plainTag (name : String) (attrs : List Attr) : StartTag := ⟨name.toList, attrs, [], false⟩

def titleNodes (text : String) : List Node :=
  [.element (plainTag "title" []) (escapeHtml text.toList) ⟨"title".toList, []⟩, .text ['\n']]

def metaNodes (attr : String) (key : List Char) (content : String) : List Node :=
  [.tag (plainTag "meta" [plainAttr attr key, plainAttr "content" (escapeHtml content.toList)]),
    .text ['\n']]

def canonicalNodes (href : String) : List Node :=
  [.tag (plainTag "link" [plainAttr "rel" "canonical".toList,
    plainAttr "href" (escapeHtml href.toList)]), .text ['\n']]

def socialNodes (entry : String × Value) : List Node :=
  entry.2.asStr.toList.flatMap
    (metaNodes (if isOpenGraph entry.1 then "property" else "name") (escapeHtml entry.1.toList))

def addedNodes (obj : Meta) : List Node :=
  (obj.text "title").toList.flatMap titleNodes ++
    (obj.text "description").toList.flatMap (metaNodes "name" "description".toList) ++
      (obj.text "canonical").toList.flatMap canonicalNodes ++
        ((obj.entries.filter fun entry => isSocial entry.1).insertionSort
          fun left right => left.1 ≤ right.1).flatMap socialNodes

section Added

variable {node : Node}

theorem mem_added {obj : Meta} (member : node ∈ addedNodes obj) :
    (∃ text, obj.text "title" = some text ∧ node ∈ titleNodes text) ∨
      (∃ text, obj.text "description" = some text ∧
        node ∈ metaNodes "name" "description".toList text) ∨
      (∃ text, obj.text "canonical" = some text ∧ node ∈ canonicalNodes text) ∨
      ∃ entry ∈ obj.entries, isSocial entry.1 = true ∧ ∃ text, entry.2.asStr = some text ∧
        node ∈ metaNodes (if isOpenGraph entry.1 then "property" else "name")
          (escapeHtml entry.1.toList) text := by
  unfold addedNodes at member
  simp only [mem_append, mem_flatMap, Option.mem_toList, mem_insertionSort,
    mem_filter, socialNodes] at member
  rcases member with ((title | description) | canonical) | social
  · exact .inl title
  · exact .inr (.inl description)
  · exact .inr (.inr (.inl canonical))
  · obtain ⟨entry, ⟨listed, social⟩, text, found, inside⟩ := social
    exact .inr (.inr (.inr ⟨entry, listed, social, text, found, inside⟩))

theorem title_print (text : String) : (titleNodes text).flatMap Node.print = titleTag text := by
  have opening : "<title>".toList = '<' :: ("title".toList ++ ['>']) := by decide
  have closing : "</title>\n".toList = '<' :: '/' :: ("title".toList ++ ['>', '\n']) := by decide
  unfold titleNodes titleTag plainTag
  rw [opening, closing]
  simp only [flatMap_cons, flatMap_nil, Node.print, StartTag.text, StartTag.inner,
    EndTag.text, Bool.false_eq_true, if_false, append_assoc, cons_append,
    nil_append, append_nil]

theorem attr_print (name : String) (value : List Char) :
    (plainAttr name value).text = ' ' :: (name.toList ++ '=' :: '"' :: (value ++ ['"'])) := by
  unfold plainAttr Attr.text
  simp only [Option.elim_some, Given.text, AttrValue.text, List.cons_append, List.nil_append]

theorem meta_print (attr : String) (key : List Char) (content : String) :
    (metaNodes attr key content).flatMap Node.print = metaTag attr key content := by
  have opening : "<meta ".toList = '<' :: ("meta".toList ++ [' ']) := by decide
  have equal : "=\"".toList = ['=', '"'] := by decide
  have between : "\" content=\"".toList = '"' :: ' ' :: ("content".toList ++ ['=', '"']) := by
    decide
  have closing : "\">\n".toList = ['"', '>', '\n'] := by decide
  unfold metaNodes metaTag plainTag
  rw [opening, equal, between, closing]
  simp only [flatMap_cons, flatMap_nil, Node.print, StartTag.text, StartTag.inner,
    attr_print, Bool.false_eq_true, if_false, append_assoc, cons_append,
    nil_append, append_nil]

theorem canonical_print (href : String) :
    (canonicalNodes href).flatMap Node.print = canonicalTag href := by
  have opening : "<link rel=\"canonical\" href=\"".toList = '<' :: ("link".toList ++
      ' ' :: ("rel".toList ++ '=' :: '"' :: ("canonical".toList ++ '"' :: ' ' ::
        ("href".toList ++ ['=', '"'])))) := by
    decide
  have closing : "\">\n".toList = ['"', '>', '\n'] := by decide
  unfold canonicalNodes canonicalTag plainTag
  rw [opening, closing]
  simp only [flatMap_cons, flatMap_nil, Node.print, StartTag.text, StartTag.inner,
    attr_print, Bool.false_eq_true, if_false, append_assoc, cons_append,
    nil_append, append_nil]

theorem added_print (obj : Meta) : (addedNodes obj).flatMap Node.print = renderMetaTags obj := by
  have socials (entry : String × Value) :
      (socialNodes entry).flatMap Node.print = socialTag entry := by
    unfold socialNodes socialTag
    rw [flatMap_assoc]
    apply flatMap_congr
    intro text _
    exact meta_print _ _ _
  unfold addedNodes renderMetaTags
  rw [flatMap_append, flatMap_append, flatMap_append, flatMap_assoc,
    flatMap_assoc, flatMap_assoc, flatMap_assoc]
  simp only [title_print, meta_print, canonical_print, socials]

theorem plain_attr_valid {name : String} {value : List Char}
    (named : (!name.toList.isEmpty && name.toList.all isAttrChar) = true)
    (plain : '"' ∉ value) : (plainAttr name value).valid = true := by
  have quoted : value.contains '"' = false := by
    rw [← Bool.not_eq_true, List.contains_iff_mem]
    exact plain
  have worded : (AttrValue.quoted '"' value).valid = true := by
    rw [AttrValue.valid, quoted]
    rfl
  unfold Attr.valid plainAttr
  rw [Bool.and_eq_true] at named
  rw [named.1, named.2, Option.all_some, Given.valid, worded]
  rfl

theorem plain_tag_valid {name : String} {first second : Attr} (named : isName name.toList = true)
    (one : first.valid = true) (other : second.valid = true)
    (apart : eqIgnoreCase first.name second.name = false) :
    (plainTag name [first, second]).valid = true := by
  unfold StartTag.valid plainTag
  have both : [first, second].all Attr.valid = true := by
    rw [all_cons, one, all_cons, other]
    rfl
  have pairs : [first, second].Pairwise fun first second =>
      eqIgnoreCase first.name second.name = false := by
    rw [pairwise_pair]
    exact apart
  dsimp only
  rw [named, both, decide_eq_true pairs]
  rfl

theorem escape_unquoted (text : List Char) : '"' ∉ escapeHtml text :=
  fun member => (escape_plain member).2.2.1 rfl

theorem newline_valid : Node.valid (.text ['\n']) = true := by decide

theorem title_valid {text : String} (member : node ∈ titleNodes text) : node.valid = true := by
  rcases mem_pair.mp member with rfl | rfl
  · have tailed : ((escapeHtml text.toList).tails.all fun rest => rest.isEmpty ||
        !closesHere "title".toList (rest ++ (EndTag.mk "title".toList []).text)) = true := by
      rw [all_eq_true]
      intro rest tail
      rw [mem_tails] at tail
      cases rest with
      | nil => rfl
      | cons char rest =>
        have inside : char ∈ escapeHtml text.toList := tail.subset mem_cons_self
        have other : sameLetter '<' char = false := by
          apply decide_eq_false
          intro same
          exact (escape_plain inside).1 (same.eq (by decide)).symm
        unfold closesHere
        rw [cons_append, Text.starts, other]
        rfl
    have start : (plainTag "title" []).valid = true := by decide
    have raw : isRaw (plainTag "title" []).name = true := by decide
    have stop : (EndTag.mk "title".toList []).valid = true := by decide
    have same : eqIgnoreCase "title".toList (plainTag "title" []).name = true := by decide
    rw [Node.valid, start, raw, stop, same]
    exact tailed
  · exact newline_valid

theorem meta_valid {attr content : String} {key : List Char}
    (named : attr = "name" ∨ attr = "property") (plain : '"' ∉ key)
    (member : node ∈ metaNodes attr key content) : node.valid = true := by
  rcases List.mem_pair.mp member with rfl | rfl
  · have raw : isRaw (plainTag "meta" [plainAttr attr key,
        plainAttr "content" (escapeHtml content.toList)]).name = false := by
      change isRaw "meta".toList = false
      decide
    rw [Node.valid, raw]
    rw [Bool.not_false, Bool.and_true]
    apply plain_tag_valid (by decide) _ (plain_attr_valid (by decide) (escape_unquoted _))
    · rcases named with rfl | rfl
      · change eqIgnoreCase "name".toList "content".toList = false
        decide
      · change eqIgnoreCase "property".toList "content".toList = false
        decide
    · apply plain_attr_valid _ plain
      rcases named with rfl | rfl <;> decide
  · exact newline_valid

theorem canonical_valid {href : String} (member : node ∈ canonicalNodes href) :
    node.valid = true := by
  rcases mem_pair.mp member with rfl | rfl
  · have raw : isRaw (plainTag "link" [plainAttr "rel" "canonical".toList,
        plainAttr "href" (escapeHtml href.toList)]).name = false := by
      change isRaw "link".toList = false
      decide
    rw [Node.valid, raw]
    rw [Bool.not_false, Bool.and_true]
    apply plain_tag_valid (by decide) (plain_attr_valid (by decide) (by decide))
      (plain_attr_valid (by decide) (escape_unquoted _))
    change eqIgnoreCase "rel".toList "href".toList = false
    decide
  · exact newline_valid

theorem social_attr (key : String) :
    (if isOpenGraph key then "property" else "name") = "name" ∨
      (if isOpenGraph key then "property" else "name") = "property" := by
  split
  · exact .inr rfl
  · exact .inl rfl

theorem added_valid (obj : Meta) : (addedNodes obj).all Node.valid = true := by
  rw [all_eq_true]
  intro node member
  rcases mem_added member with ⟨_, _, inside⟩ | ⟨_, _, inside⟩ | ⟨_, _, inside⟩ |
    ⟨entry, _, _, _, _, inside⟩
  · exact title_valid inside
  · exact meta_valid (.inl rfl) (by decide) inside
  · exact canonical_valid inside
  · exact meta_valid (social_attr entry.1) (escape_unquoted _) inside

end Added

section Specification

/-- What a reader makes of the character references in a text. -/
structure References (decode : List Char → List Char) : Prop where
  plain : ∀ text, '&' ∉ text → decode text = text
  escaped : ∀ text, decode (escapeHtml text) = text

variable (decode : List Char → List Char)

def Kind.has (kind : Kind) (node : Node) : Bool :=
  match kind, node with
  | .title, .element start _ _ => eqIgnoreCase start.name "title".toList
  | .canonical, .tag start => eqIgnoreCase start.name "link".toList &&
      (start.attr "rel").any fun value => eqIgnoreCase (decode value) "canonical".toList
  | .named key, .tag start => eqIgnoreCase start.name "meta".toList &&
      ["name", "property"].any fun attr =>
        (start.attr attr).any fun value => eqIgnoreCase (decode value) key.toList
  | _, _ => false

def Kind.shown (kind : Kind) (node : Node) : Option (List Char) :=
  match kind, node with
  | .title, .element _ content _ => some (decode content)
  | .canonical, .tag start => (start.attr "href").map decode
  | .named _, .tag start => (start.attr "content").map decode
  | _, _ => none

def Meta.replaces (obj : Meta) (node : Node) : Bool :=
  obj.kinds.any fun entry => entry.1.has decode node

def Document.inject (page : Document) (obj : Meta) : Document :=
  { page with
    nodes := page.nodes.filter (fun node => !obj.replaces decode node) ++ addedNodes obj
    valid := by
      rw [List.all_append, added_valid, Bool.and_true, List.all_eq_true]
      intro node member
      exact List.all_eq_true.mp page.valid node (List.mem_of_mem_filter member) }

def Node.isMetadata : Node → Bool
  | .text content => content.all isSpace
  | .tag start => ["meta".toList, "link".toList].contains start.name
  | .element start _ _ => start.name = "title".toList
  | _ => false

/-- What the metadata does to a page. The tags of the page that say something else, its comments,
its scripts and its styles stay as they are and in their order, and so does everything around the
head. Each kind has one tag then, with the text of the metadata. -/
structure Injected (page : Document) (obj : Meta) (out : List Char) : Prop where
  printed : out = (page.inject decode obj).print
  once : ∀ entry ∈ obj.kinds, ∃ node,
    (page.inject decode obj).nodes.filter (entry.1.has decode) = [node] ∧
      entry.1.shown decode node = some entry.2.toList
  plain : ∀ node ∈ addedNodes obj, node.isMetadata = true
  unchanged : obj.kinds = [] → out = page.print

end Specification

end OnlyJs.Serve.HeadMeta
