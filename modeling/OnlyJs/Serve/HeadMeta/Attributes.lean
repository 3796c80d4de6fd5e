import OnlyJs.Serve.HeadMeta.Document

/-!
# Attributes as the scanner reads them

The scanner looks for a word that has a `=` behind it, wherever it stands in a tag. It finds the
attribute of this name if the word does not stand in a name or a value before.
-/

namespace OnlyJs.Serve.HeadMeta

open Lib List

/-- The word stands in the text, as a word, with a `=` behind it. -/
def holdsWord (key : List Char) : Bool → List Char → Bool
  | _, [] => false
  | boundary, char :: rest =>
    (boundary && Text.starts sameLetter key (char :: rest) &&
      (((char :: rest).drop key.length).dropWhile isSpace).head? == some '=') ||
      holdsWord key (!isNameChar char) rest

def Attr.gives (key : List Char) (attr : Attr) : Bool :=
  attr.isNamed key && attr.given.isSome

def Attr.quiet (key : List Char) (attr : Attr) : Bool :=
  match attr.given with
  | none => true
  | some given =>
    !holdsWord key (attr.name.head?.any fun char => !isNameChar char)
        (attr.name.tail ++ ['=']) &&
      (given.value.isBare || !holdsWord key true given.value.raw)

def quietUpTo (key : List Char) : List Attr → Bool
  | [] => true
  | attr :: rest => attr.gives key || attr.quiet key && quietUpTo key rest

def givenValue (key : List Char) (attrs : List Attr) : Option (List Char) :=
  (attrs.find? (Attr.gives key)).bind fun attr => attr.given.map fun given => given.value.raw

section Letters

variable {key text rest : List Char}

theorem same_letter_alpha {left right : Char} (same : sameLetter left right = true) :
    left.isAlpha = right.isAlpha := LetterCase.SameLetter.alpha (of_decide_eq_true same)

theorem starts_within (letters : ∀ char ∈ key, char.isAlpha = true)
    (stop : ∀ char ∈ rest.head?, char.isAlpha = false)
    (here : Text.starts sameLetter key (text ++ rest) = true) :
    key.length ≤ text.length ∧ Text.starts sameLetter key text = true := by
  induction key generalizing text with
  | nil => exact ⟨Nat.zero_le _, rfl⟩
  | cons letter key ih =>
    obtain ⟨first, others⟩ := forall_mem_cons.mp letters
    cases text with
    | nil =>
      cases rest with
      | nil => cases here
      | cons char rest =>
        rw [nil_append, Text.starts, Bool.and_eq_true] at here
        have plain := stop char rfl
        rw [← same_letter_alpha here.1, first] at plain
        cases plain
    | cons char text =>
      rw [cons_append, Text.starts, Bool.and_eq_true] at here
      obtain ⟨long, inside⟩ := ih others here.2
      refine ⟨Nat.succ_le_succ long, ?_⟩
      rw [Text.starts, here.1, inside]
      rfl

theorem starts_whole : eqIgnoreCase text key = true ↔
    text.length = key.length ∧ Text.starts sameLetter key text = true := by
  induction key generalizing text with
  | nil =>
    cases text with
    | nil => exact ⟨fun _ => ⟨rfl, rfl⟩, fun _ => rfl⟩
    | cons char text => exact ⟨nofun, nofun⟩
  | cons letter key ih =>
    cases text with
    | nil => exact ⟨nofun, nofun⟩
    | cons char text =>
      have tails : eqIgnoreCase (char :: text) (letter :: key) = true ↔
          char.toLower = letter.toLower ∧ eqIgnoreCase text key = true := by
        unfold eqIgnoreCase
        rw [map_cons, map_cons, beq_iff_eq, beq_iff_eq, List.cons.injEq]
      rw [tails, ih, Text.starts, Bool.and_eq_true, length_cons, length_cons,
        Nat.succ_inj, sameLetter, decide_eq_true_iff]
      constructor
      · rintro ⟨first, long, others⟩
        exact ⟨long, first.symm, others⟩
      · rintro ⟨long, first, others⟩
        exact ⟨first.symm, long, others⟩

theorem space_plain {char : Char} (space : isSpace char = true) :
    char.isAlpha = false ∧ isNameChar char = false ∧ char ≠ '=' := by
  unfold isSpace at space
  simp only [Bool.or_eq_true, decide_eq_true_eq] at space
  rcases space with (((rfl | rfl) | rfl) | rfl) | rfl <;> decide

end Letters

section Silence

variable {key : List Char}

/-- No word in the text, with the rest behind it, is taken for the name of a value. -/
def Silent (key : List Char) : Bool → List Char → List Char → Prop
  | _, [], _ => True
  | boundary, char :: text, rest =>
    (boundary = true → Text.starts sameLetter key (char :: (text ++ rest)) = true →
      valueAfter ((char :: (text ++ rest)).drop key.length) = none) ∧
    Silent key (!isNameChar char) text rest

def edge (boundary : Bool) (text : List Char) : Bool :=
  text.foldl (fun _ char => !isNameChar char) boundary

variable {boundary : Bool}

theorem scan_silent {text rest : List Char} (silent : Silent key boundary text rest) :
    attrScan key boundary (text ++ rest) = attrScan key (edge boundary text) rest := by
  induction text generalizing boundary with
  | nil => rfl
  | cons char text ih =>
    rw [cons_append, attrScan, ih silent.2]
    split
    · rename_i found
      rw [Bool.and_eq_true] at found
      rw [silent.1 found.1 found.2]
      rfl
    · rfl

theorem silent_append {first second rest : List Char} :
    Silent key boundary (first ++ second) rest ↔
      Silent key boundary first (second ++ rest) ∧
        Silent key (edge boundary first) second rest := by
  induction first generalizing boundary with
  | nil => exact ⟨fun silent => ⟨trivial, silent⟩, And.right⟩
  | cons char first ih =>
    rw [cons_append, Silent, Silent, ih, append_assoc, and_assoc]
    exact Iff.rfl

variable (letters : ∀ char ∈ key, char.isAlpha = true) (some_ : key ≠ [])

include letters some_

theorem starts_plain {char : Char} {text : List Char} (plain : char.isAlpha = false) :
    Text.starts sameLetter key (char :: text) = false := by
  rw [← Bool.not_eq_true]
  intro here
  have stop : ∀ first ∈ (char :: text).head?, first.isAlpha = false := by
    intro first same
    cases same
    exact plain
  rw [← nil_append (char :: text)] at here
  have none_ := (starts_within letters stop here).1
  exact some_ (eq_nil_of_length_eq_zero (Nat.le_zero.mp none_))

theorem silent_plain {text : List Char} (boundary : Bool) (rest : List Char)
    (plain : ∀ char ∈ text, char.isAlpha = false) : Silent key boundary text rest := by
  induction text generalizing boundary with
  | nil => exact trivial
  | cons char text ih =>
    obtain ⟨first, others⟩ := forall_mem_cons.mp plain
    refine ⟨fun _ here => ?_, ih _ others⟩
    rw [starts_plain letters some_ first] at here
    cases here

omit letters some_ in
theorem value_after_none {text : List Char}
    (other : (text.dropWhile isSpace).head? ≠ some '=') : valueAfter text = none := by
  unfold valueAfter
  split
  · rename_i found
    rw [found] at other
    exact absurd rfl other
  · rfl

omit some_ in
theorem silent_word {text rest : List Char} (boundary : Bool)
    (word : ∀ char ∈ text, isSpace char = false ∧ char ≠ '=')
    (stop : ∀ char ∈ rest.head?, char.isAlpha = false) (behind : valueAfter rest = none) :
    Silent key boundary text rest := by
  induction text generalizing boundary with
  | nil => exact trivial
  | cons char text ih =>
    refine ⟨fun _ here => ?_, ih _ (forall_mem_cons.mp word).2⟩
    rw [← cons_append] at here ⊢
    have long := (starts_within letters stop here).1
    rw [drop_append_of_le_length long]
    cases left : (char :: text).drop key.length with
    | nil => exact behind
    | cons next others =>
      have member : next ∈ char :: text :=
        mem_of_mem_drop (by rw [left]; exact mem_cons_self)
      apply value_after_none
      rw [cons_append, dropWhile_cons, (word next member).1]
      intro same
      exact (word next member).2 (Option.some.inj same)

variable {behind : List Char}

omit letters some_ in
theorem gap_plain {gap : List Char} (space : gap.all isSpace = true) :
    ∀ char ∈ (gap ++ '=' :: behind).head?, char.isAlpha = false := by
  intro char same
  cases gap with
  | nil =>
    cases same
    rfl
  | cons first gap =>
    cases same
    exact (space_plain (all_eq_true.mp space _ mem_cons_self)).1

omit some_ in
theorem silent_name {text gap : List Char} (word : ∀ char ∈ text, isSpace char = false ∧ char ≠ '=')
    (space : gap.all isSpace = true) (quiet : holdsWord key boundary (text ++ ['=']) = false) :
    Silent key boundary text (gap ++ '=' :: behind) := by
  induction text generalizing boundary with
  | nil => exact trivial
  | cons char text ih =>
    rw [cons_append, holdsWord, Bool.or_eq_false_iff] at quiet
    refine ⟨fun bounded here => ?_, ih (forall_mem_cons.mp word).2 quiet.2⟩
    rw [← cons_append] at here ⊢
    obtain ⟨long, inside⟩ := starts_within letters (gap_plain space) here
    rw [drop_append_of_le_length long]
    cases left : (char :: text).drop key.length with
    | nil =>
      have lone : Text.starts sameLetter key (char :: (text ++ ['='])) = true := by
        rw [← cons_append, Text.starts_append _ long]
        exact inside
      have none_ := quiet.1
      rw [bounded, lone, ← cons_append, drop_append_of_le_length long, left] at none_
      cases none_
    | cons next others =>
      have member : next ∈ char :: text :=
        mem_of_mem_drop (by rw [left]; exact mem_cons_self)
      apply value_after_none
      rw [cons_append, dropWhile_cons, (word next member).1]
      intro same
      exact (word next member).2 (Option.some.inj same)

omit letters some_ in
theorem head_dropWhile_append {text : List Char} {mark : Char} (plain : isSpace mark = false)
    (other : (text.dropWhile isSpace).head? ≠ some '=') (apart : mark ≠ '=') :
    ((text ++ mark :: behind).dropWhile isSpace).head? ≠ some '=' := by
  rw [dropWhile_append]
  split
  · rw [dropWhile_cons, plain]
    intro same
    exact apart (Option.some.inj same)
  · rename_i left
    cases rest : text.dropWhile isSpace with
    | nil =>
      rw [rest] at left
      exact absurd rfl left
    | cons first others =>
      rw [rest] at other
      exact other

omit some_ in
theorem silent_quoted {text : List Char} {mark : Char}
    (plain : isSpace mark = false ∧ mark.isAlpha = false ∧ mark ≠ '=')
    (quiet : holdsWord key boundary text = false) :
    Silent key boundary text (mark :: behind) := by
  induction text generalizing boundary with
  | nil => exact trivial
  | cons char text ih =>
    rw [holdsWord, Bool.or_eq_false_iff] at quiet
    refine ⟨fun bounded here => ?_, ih quiet.2⟩
    have stop : ∀ first ∈ (mark :: behind).head?, first.isAlpha = false := by
      intro first same
      cases same
      exact plain.2.1
    rw [← cons_append] at here ⊢
    obtain ⟨long, inside⟩ := starts_within letters stop here
    rw [drop_append_of_le_length long]
    apply value_after_none
    apply head_dropWhile_append plain.1 _ plain.2.2
    intro same
    have none_ := quiet.1
    rw [bounded, inside, same] at none_
    cases none_

omit some_ in
theorem silent_cut {text : List Char} (quiet : holdsWord key boundary (text ++ behind) = false) :
    Silent key boundary text [] := by
  induction text generalizing boundary with
  | nil => exact trivial
  | cons char text ih =>
    rw [cons_append, holdsWord, Bool.or_eq_false_iff] at quiet
    refine ⟨fun bounded here => ?_, ih quiet.2⟩
    rw [← cons_append] at here ⊢
    have stop : ∀ first ∈ ([] : List Char).head?, first.isAlpha = false := by
      intro first same
      cases same
    obtain ⟨long, inside⟩ := starts_within letters stop here
    rw [append_nil] at here ⊢
    apply value_after_none
    intro same
    have none_ := quiet.1
    have further : ((((char :: text) ++ behind).drop key.length).dropWhile isSpace).head? =
        some '=' := by
      rw [drop_append_of_le_length long, dropWhile_append]
      split
      · rename_i left
        rw [List.isEmpty_iff.mp left] at same
        cases same
      · cases rest : ((char :: text).drop key.length).dropWhile isSpace with
        | nil =>
          rw [rest] at same
          cases same
        | cons first others =>
          rw [rest] at same
          exact same
    rw [bounded, ← cons_append, Text.starts_append _ long, inside, further] at none_
    cases none_

end Silence

section Attributes

variable {key : List Char}

/-- What stands behind an attribute: white space, then no `=`. -/
structure Follows (rest : List Char) : Prop where
  head : ∀ char ∈ rest.head?, isSpace char = true ∨ char = '/'
  given : (rest.dropWhile isSpace).head? ≠ some '='

theorem Follows.plain {rest : List Char} (follows : Follows rest) :
    ∀ char ∈ rest.head?, char.isAlpha = false := by
  intro char first
  rcases follows.head char first with space | rfl
  · exact (space_plain space).1
  · rfl

theorem dropWhile_all {text : List Char} {rest : List Char} (space : text.all isSpace = true) :
    (text ++ rest).dropWhile isSpace = rest.dropWhile isSpace :=
  dropWhile_append_of_pos (all_eq_true.mp space)

theorem value_after_equals {text behind rest : List Char} {first : Char}
    (equals : text.dropWhile isSpace = '=' :: behind)
    (starts : behind.dropWhile isSpace = first :: rest) :
    valueAfter text =
      if first = '"' || first = '\'' then some ((Text.splitOnce first rest).map Prod.fst)
      else some (some ((first :: rest).takeWhile fun char => !isSpace char)) := by
  simp only [valueAfter, equals, starts]

variable {given : Given}

/-- The value of an attribute is read as it was written. -/
theorem value_after_given {rest : List Char} (valid : given.valid = true)
    (bare : given.value.isBare = true → ∀ char ∈ rest.head?, isSpace char = true) :
    valueAfter (given.text ++ rest) = some (some given.value.raw) := by
  obtain ⟨before, after, value⟩ := given
  unfold Given.valid at valid
  rw [Bool.and_eq_true, Bool.and_eq_true] at valid
  obtain ⟨⟨spaced, gapped⟩, worded⟩ := valid
  have equals : ((Given.mk before after value).text ++ rest).dropWhile isSpace =
      '=' :: (after ++ value.text ++ rest) := by
    rw [Given.text, append_assoc, dropWhile_all spaced]
    rfl
  have behind : (after ++ value.text ++ rest).dropWhile isSpace =
      (value.text ++ rest).dropWhile isSpace := by
    rw [append_assoc, dropWhile_all gapped]
  cases value with
  | quoted quote text =>
    rw [AttrValue.valid, Bool.and_eq_true, Bool.or_eq_true, decide_eq_true_eq,
      decide_eq_true_eq, Bool.not_eq_true', ← Bool.not_eq_true, contains_iff_mem] at worded
    obtain ⟨mark, free⟩ := worded
    have plain : isSpace quote = false := by
      rcases mark with rfl | rfl <;> decide
    have quotes : (quote = '"' || quote = '\'') = true := by
      rcases mark with rfl | rfl <;> decide
    have starts : ((AttrValue.quoted quote text).text ++ rest).dropWhile isSpace =
        quote :: (text ++ quote :: rest) := by
      rw [AttrValue.text, cons_append, dropWhile_cons, plain, if_neg Bool.false_ne_true,
        append_assoc, singleton_append]
    rw [value_after_equals equals (behind.trans starts), if_pos quotes,
      Text.split_once_append _ free]
    rfl
  | bare text =>
    rw [AttrValue.valid, Bool.and_eq_true, Bool.not_eq_true', isEmpty_eq_false_iff,
      all_eq_true] at worded
    obtain ⟨some_, chars⟩ := worded
    have spaceless : ∀ char ∈ text, isSpace char = false := by
      intro char member
      have good := chars char member
      unfold isBareChar at good
      rw [Bool.and_eq_true, Bool.not_eq_true'] at good
      exact good.1
    have taken : (text ++ rest).takeWhile (fun char => !isSpace char) = text := by
      rw [takeWhile_append_of_pos]
      · cases rest with
        | nil => exact append_nil _
        | cons char rest =>
          rw [takeWhile_cons, bare rfl char rfl]
          exact append_nil _
      · intro char member
        rw [spaceless char member]
        rfl
    cases text with
    | nil => exact absurd rfl some_
    | cons first text =>
      have quoteless : (first = '"' || first = '\'') = false := by
        have good := chars first mem_cons_self
        unfold isBareChar at good
        rw [Bool.and_eq_true] at good
        rw [Bool.or_eq_false_iff, decide_eq_false_iff_not, decide_eq_false_iff_not]
        constructor
        · rintro rfl
          exact absurd good.2 (by decide)
        · rintro rfl
          exact absurd good.2 (by decide)
      have starts : ((AttrValue.bare (first :: text)).text ++ rest).dropWhile isSpace =
          first :: (text ++ rest) := by
        rw [AttrValue.text, cons_append, dropWhile_cons, spaceless first mem_cons_self,
          if_neg Bool.false_ne_true]
      rw [value_after_equals equals (behind.trans starts), quoteless, ← cons_append, taken]
      rfl

theorem attr_char {char : Char} (good : isAttrChar char = true) :
    (isSpace char = false ∧ char ≠ '=') ∧ char ≠ '>' := by
  unfold isAttrChar at good
  rw [Bool.and_eq_true, Bool.not_eq_true'] at good
  refine ⟨⟨good.1, ?_⟩, ?_⟩
  · rintro rfl
    exact absurd good.2 (by decide)
  · rintro rfl
    exact absurd good.2 (by decide)

structure AttrParts (attr : Attr) : Prop where
  spaced : attr.space ≠ []
  space : attr.space.all isSpace = true
  named : attr.name ≠ []
  name : ∀ char ∈ attr.name, isSpace char = false ∧ char ≠ '='
  closed : '>' ∉ attr.name
  given : ∀ given ∈ attr.given, given.valid = true

variable {attr : Attr}

theorem attr_parts (valid : attr.valid = true) : AttrParts attr := by
  unfold Attr.valid at valid
  rw [Bool.and_eq_true, Bool.and_eq_true, Bool.and_eq_true, Bool.and_eq_true,
    Bool.not_eq_true', Bool.not_eq_true', isEmpty_eq_false_iff,
    isEmpty_eq_false_iff] at valid
  obtain ⟨⟨⟨⟨spaced, space⟩, named⟩, name⟩, given⟩ := valid
  refine ⟨spaced, space, named, fun char member => ?_, fun member => ?_, fun value same => ?_⟩
  · exact (attr_char (all_eq_true.mp name char member)).1
  · exact (attr_char (all_eq_true.mp name _ member)).2 rfl
  · rw [same] at given
    exact given

theorem space_silent (letters : ∀ char ∈ key, char.isAlpha = true) (some_ : key ≠ [])
    {text : List Char} (boundary : Bool) (rest : List Char) (space : text.all isSpace = true) :
    Silent key boundary text rest := by
  apply silent_plain letters some_
  intro char member
  exact (space_plain (all_eq_true.mp space char member)).1

theorem edge_space {boundary : Bool} {text : List Char} (some_ : text ≠ [])
    (space : text.all isSpace = true) : edge boundary text = true := by
  rw [← dropLast_concat_getLast some_, edge, foldl_append]
  have last := all_eq_true.mp space _ (getLast_mem some_)
  rw [foldl_cons, (space_plain last).2.1]
  rfl

variable (letters : ∀ char ∈ key, char.isAlpha = true) (some_ : key ≠ [])

include letters some_

theorem scan_flag {rest : List Char} (boundary : Bool)
    (plain : ∀ char ∈ rest.head?, char.isAlpha = false) :
    attrScan key boundary rest = attrScan key true rest := by
  cases rest with
  | nil => rfl
  | cons char rest =>
    rw [attrScan, attrScan, starts_plain letters some_ (plain char rfl), Bool.and_false,
      Bool.and_false]

theorem scan_gives {rest : List Char} (boundary : Bool) (valid : attr.valid = true)
    (gives : attr.gives key = true)
    (bare : ∀ given ∈ attr.given, given.value.isBare = true →
      ∀ char ∈ rest.head?, isSpace char = true) :
    attrScan key boundary (attr.text ++ rest) =
      attr.given.map fun given => given.value.raw := by
  have parts := attr_parts valid
  unfold Attr.gives Attr.isNamed at gives
  rw [Bool.and_eq_true] at gives
  obtain ⟨same, valued⟩ := gives
  obtain ⟨given, found⟩ := Option.isSome_iff_exists.mp valued
  obtain ⟨long, here⟩ := starts_whole.mp same
  unfold Attr.text
  rw [found, Option.elim_some, append_assoc, append_assoc,
    scan_silent (space_silent letters some_ boundary _ parts.space),
    edge_space parts.spaced parts.space]
  have reach : Text.starts sameLetter key (attr.name ++ (given.text ++ rest)) = true := by
    rw [Text.starts_append _ (Nat.le_of_eq long.symm)]
    exact here
  have behind : (attr.name ++ (given.text ++ rest)).drop key.length = given.text ++ rest := by
    rw [← long, drop_left]
  have value := value_after_given (parts.given given found) (bare given found)
  cases name : attr.name with
  | nil => exact absurd name parts.named
  | cons char others =>
    rw [name] at reach behind
    rw [cons_append] at reach behind ⊢
    rw [attrScan, reach, behind, value]
    rfl

omit some_ in
theorem other_silent {behind : List Char} {boundary : Bool} (parts : AttrParts attr)
    (found : attr.given = some given) (other : eqIgnoreCase attr.name key = false)
    (quiet : attr.quiet key = true) :
    Silent key boundary attr.name (given.before ++ '=' :: behind) := by
  unfold Attr.quiet at quiet
  rw [found] at quiet
  dsimp only at quiet
  rw [Bool.and_eq_true, Bool.not_eq_true'] at quiet
  have valid := parts.given given found
  unfold Given.valid at valid
  rw [Bool.and_eq_true, Bool.and_eq_true] at valid
  have words := parts.name
  cases name : attr.name with
  | nil => exact trivial
  | cons char others =>
    rw [name] at words quiet other
    refine ⟨fun _ here => ?_,
      silent_name letters (forall_mem_cons.mp words).2 valid.1.1 quiet.1⟩
    rw [← cons_append] at here ⊢
    obtain ⟨long, inside⟩ := starts_within letters (gap_plain valid.1.1) here
    rw [drop_append_of_le_length long]
    cases left : (char :: others).drop key.length with
    | nil =>
      have short := drop_eq_nil_iff.mp left
      rw [starts_whole.mpr ⟨Nat.le_antisymm short long, inside⟩] at other
      cases other
    | cons next more =>
      have member : next ∈ char :: others :=
        mem_of_mem_drop (by rw [left]; exact mem_cons_self)
      apply value_after_none
      rw [cons_append, dropWhile_cons, (words next member).1]
      intro same
      exact (words next member).2 (Option.some.inj same)

theorem silent_mark {char : Char} {text rest : List Char} (boundary : Bool)
    (plain : char.isAlpha = false) (silent : Silent key (!isNameChar char) text rest) :
    Silent key boundary (char :: text) rest := by
  refine ⟨fun _ here => ?_, silent⟩
  rw [starts_plain letters some_ plain] at here
  cases here

variable {quote : Char}

omit letters some_ in
theorem quote_plain (mark : quote = '"' ∨ quote = '\'') :
    isSpace quote = false ∧ quote.isAlpha = false ∧ quote ≠ '=' ∧ isNameChar quote = false := by
  rcases mark with rfl | rfl <;> decide

omit letters some_ in
theorem quoted_parts {text : List Char} (valid : (AttrValue.quoted quote text).valid = true) :
    (quote = '"' ∨ quote = '\'') ∧ quote ∉ text := by
  rw [AttrValue.valid, Bool.and_eq_true, Bool.or_eq_true, decide_eq_true_eq,
    decide_eq_true_eq, Bool.not_eq_true', ← Bool.not_eq_true, List.contains_iff_mem] at valid
  exact valid

theorem given_silent {rest : List Char} (boundary : Bool) (valid : given.valid = true)
    (quiet : (given.value.isBare || !holdsWord key true given.value.raw) = true)
    (follows : Follows rest) : Silent key boundary given.text rest := by
  obtain ⟨before, after, value⟩ := given
  unfold Given.valid at valid
  rw [Bool.and_eq_true, Bool.and_eq_true] at valid
  obtain ⟨⟨spaced, gapped⟩, worded⟩ := valid
  unfold Given.text
  rw [silent_append]
  refine ⟨space_silent letters some_ _ _ spaced, silent_mark letters some_ _ (by decide) ?_⟩
  rw [silent_append]
  refine ⟨space_silent letters some_ _ _ gapped, ?_⟩
  cases value with
  | quoted quote text =>
    obtain ⟨mark, _⟩ := quoted_parts worded
    obtain ⟨apart, plain, other, edged⟩ := quote_plain mark
    have free : holdsWord key true text = false := by
      rw [AttrValue.isBare, Bool.false_or, Bool.not_eq_true'] at quiet
      exact quiet
    apply silent_mark letters some_ _ plain
    rw [edged, silent_append]
    exact ⟨silent_quoted letters ⟨apart, plain, other⟩ free,
      silent_mark letters some_ _ plain trivial⟩
  | bare text =>
    rw [AttrValue.valid, Bool.and_eq_true, all_eq_true] at worded
    apply silent_word letters _ _ follows.plain (value_after_none follows.given)
    intro char member
    have good := worded.2 char member
    unfold isBareChar at good
    rw [Bool.and_eq_true, Bool.not_eq_true'] at good
    refine ⟨good.1, ?_⟩
    rintro rfl
    exact absurd good.2 (by decide)

theorem scan_other {rest : List Char} (boundary : Bool) (valid : attr.valid = true)
    (other : attr.gives key = false) (quiet : attr.quiet key = true) (follows : Follows rest) :
    attrScan key boundary (attr.text ++ rest) = attrScan key true rest := by
  have parts := attr_parts valid
  have silent : Silent key boundary attr.text rest := by
    unfold Attr.text
    rw [silent_append]
    refine ⟨space_silent letters some_ _ _ parts.space, ?_⟩
    rw [silent_append]
    unfold Attr.gives Attr.isNamed at other
    cases found : attr.given with
    | none =>
      refine ⟨?_, trivial⟩
      exact silent_word letters _ parts.name follows.plain (value_after_none follows.given)
    | some given =>
      rw [found, Option.isSome_some, Bool.and_true] at other
      constructor
      · rw [Option.elim_some, Given.text, append_assoc]
        exact other_silent letters parts found other quiet
      unfold Attr.quiet at quiet
      rw [found] at quiet
      rw [Bool.and_eq_true] at quiet
      exact given_silent letters some_ _ (parts.given given found) quiet.2 follows
  rw [scan_silent silent, scan_flag letters some_ _ follows.plain]

/-- A tag that is cut off in the quotes of an attribute. -/
theorem scan_cut_off {text behind : List Char} (boundary : Bool) (valid : attr.valid = true)
    (found : attr.given = some given) (worded : given.value = .quoted quote (text ++ behind))
    (quiet : attr.gives key = true ∨ attr.quiet key = true) :
    attrScan key boundary
      (attr.space ++ (attr.name ++ (given.before ++ '=' :: (given.after ++ quote :: text)))) =
        none := by
  have parts := attr_parts valid
  have good := parts.given given found
  unfold Given.valid at good
  rw [worded, Bool.and_eq_true, Bool.and_eq_true] at good
  obtain ⟨⟨spaced, gapped⟩, quoted⟩ := good
  obtain ⟨mark, free⟩ := quoted_parts quoted
  obtain ⟨apart, plain, unequal, edged⟩ := quote_plain mark
  rw [scan_silent (space_silent letters some_ boundary _ parts.space),
    edge_space parts.spaced parts.space]
  by_cases named : eqIgnoreCase attr.name key = true
  · obtain ⟨long, here⟩ := starts_whole.mp named
    have unclosed : Text.splitOnce quote text = none := by
      cases split : Text.splitOnce quote text with
      | none => rfl
      | some pair =>
        have whole := Text.split_once_whole split
        refine absurd ?_ free
        rw [whole]
        exact mem_append_left _ (mem_append_right _ mem_cons_self)
    have value : valueAfter (given.before ++ '=' :: (given.after ++ quote :: text)) =
        some none := by
      have equals : (given.before ++ '=' :: (given.after ++ quote :: text)).dropWhile isSpace =
          '=' :: (given.after ++ quote :: text) := dropWhile_all spaced
      have behind : (given.after ++ quote :: text).dropWhile isSpace = quote :: text := by
        rw [dropWhile_all gapped, dropWhile_cons, apart, if_neg Bool.false_ne_true]
      have quotes : (quote = '"' || quote = '\'') = true := by
        rcases mark with rfl | rfl <;> decide
      rw [value_after_equals equals behind, if_pos quotes, unclosed]
      rfl
    have reach : Text.starts sameLetter key
        (attr.name ++ (given.before ++ '=' :: (given.after ++ quote :: text))) = true := by
      rw [Text.starts_append _ (Nat.le_of_eq long.symm)]
      exact here
    have behind : (attr.name ++ (given.before ++ '=' :: (given.after ++ quote :: text))).drop
        key.length = given.before ++ '=' :: (given.after ++ quote :: text) := by
      rw [← long, drop_left]
    cases name : attr.name with
    | nil => exact absurd name parts.named
    | cons char others =>
      rw [name] at reach behind
      rw [cons_append] at reach behind ⊢
      rw [attrScan, reach, behind, value]
      rfl
  · rw [Bool.not_eq_true] at named
    have missed : attr.gives key = false := by
      rw [Attr.gives, Attr.isNamed, named, Bool.false_and]
    have hushed := quiet.resolve_left (by rw [missed]; exact Bool.false_ne_true)
    have contained : holdsWord key true (text ++ behind) = false := by
      unfold Attr.quiet at hushed
      rw [found] at hushed
      rw [Bool.and_eq_true] at hushed
      obtain ⟨_, inside⟩ := hushed
      rw [worded, AttrValue.isBare, Bool.false_or, Bool.not_eq_true'] at inside
      exact inside
    have silent : Silent key true
        (attr.name ++ (given.before ++ '=' :: (given.after ++ quote :: text))) [] := by
      rw [silent_append, append_nil]
      refine ⟨other_silent letters parts found named hushed, ?_⟩
      rw [silent_append]
      refine ⟨space_silent letters some_ _ _ spaced, silent_mark letters some_ _ (by decide) ?_⟩
      rw [silent_append]
      refine ⟨space_silent letters some_ _ _ gapped, silent_mark letters some_ _ plain ?_⟩
      rw [edged]
      exact silent_cut letters contained
    have scanned := scan_silent silent
    rw [append_nil] at scanned
    rw [scanned]
    rfl

end Attributes

def cut (text : List Char) : List Char := text.takeWhile fun char => char ≠ '>'

section Tags

theorem cut_append {first : List Char} (second : List Char) (closed : '>' ∉ first) :
    cut (first ++ second) = first ++ cut second := by
  apply takeWhile_append_of_pos
  intro char member
  apply decide_eq_true
  rintro rfl
  exact closed member

theorem cut_closed {text : List Char} (closed : '>' ∉ text) : cut text = text := by
  have whole := cut_append [] closed
  rw [append_nil] at whole
  rw [whole]
  exact append_nil _

theorem cut_mark {first : List Char} (second : List Char) (closed : '>' ∉ first) :
    cut (first ++ '>' :: second) = first := by
  rw [cut_append _ closed]
  exact append_nil _

theorem space_closed {text : List Char} (space : text.all isSpace = true) : '>' ∉ text := by
  intro member
  exact absurd (all_eq_true.mp space _ member) (by decide)

/-- A tag can only be cut off in the quotes of an attribute. -/
theorem attr_cut {attr : Attr} (valid : attr.valid = true) :
    '>' ∉ attr.text ∨ '>' ∈ attr.text ∧ ∃ given quote text behind, attr.given = some given ∧
      given.value = .quoted quote (text ++ '>' :: behind) ∧
      ∀ rest, cut (attr.text ++ rest) =
        attr.space ++ (attr.name ++ (given.before ++ '=' :: (given.after ++ quote :: text))) := by
  have parts := attr_parts valid
  have spaced := space_closed parts.space
  cases found : attr.given with
  | none =>
    left
    unfold Attr.text
    rw [found, Option.elim_none, append_nil, mem_append, not_or]
    exact ⟨spaced, parts.closed⟩
  | some given =>
    have good := parts.given given found
    unfold Given.valid at good
    rw [Bool.and_eq_true, Bool.and_eq_true] at good
    obtain ⟨⟨before, after⟩, worded⟩ := good
    have before := space_closed before
    have after := space_closed after
    have unequal : '>' ≠ '=' := by decide
    cases value : given.value with
    | bare text =>
      left
      rw [value, AttrValue.valid, Bool.and_eq_true, all_eq_true] at worded
      have closed : '>' ∉ text := by
        intro member
        exact absurd (worded.2 _ member) (by decide)
      unfold Attr.text
      rw [found, Option.elim_some, Given.text, value]
      simp only [mem_append, mem_cons, not_or]
      exact ⟨spaced, parts.closed, before, unequal, after, closed⟩
    | quoted quote text =>
      rw [value] at worded
      obtain ⟨mark, _⟩ := quoted_parts worded
      have apart : '>' ≠ quote := by
        rcases mark with rfl | rfl <;> decide
      cases split : Text.splitOnce '>' text with
      | none =>
        left
        have closed := Text.split_once_none split
        unfold Attr.text
        rw [found, Option.elim_some, Given.text, value, AttrValue.text]
        simp only [mem_append, mem_cons, not_mem_nil, not_or]
        exact ⟨spaced, parts.closed, before, unequal, after, apart, closed, apart,
          not_false⟩
      | some pair =>
        right
        obtain ⟨first, second⟩ := pair
        have whole := Text.split_once_whole split
        unfold Attr.text
        rw [found, Option.elim_some, Given.text, value, AttrValue.text, whole]
        refine ⟨?_, given, quote, first, second, rfl, value.trans (by rw [whole]),
          fun rest => ?_⟩
        · simp only [mem_append, mem_cons]
          tauto
        have closed : '>' ∉ attr.space ++ (attr.name ++ (given.before ++
            '=' :: (given.after ++ quote :: first))) := by
          simp only [mem_append, mem_cons, not_or]
          exact ⟨spaced, parts.closed, before, unequal, after, apart,
            Text.split_once_before split⟩
        rw [← cut_mark (second ++ [quote] ++ rest) closed]
        simp only [append_assoc, cons_append]

/-- What stands between the last attribute of a tag and its end. -/
structure Closing (attrs : List Attr) (tail : List Char) : Prop where
  follows : Follows tail
  closed : '>' ∉ tail
  plain : ∀ char ∈ tail, char.isAlpha = false
  bare : ∀ attr ∈ attrs.getLast?, ∀ given ∈ attr.given, given.value.isBare = true →
    ∀ char ∈ tail.head?, isSpace char = true

variable {tail : List Char}

theorem Closing.rest {attr : Attr} {rest : List Attr} (closing : Closing (attr :: rest) tail) :
    Closing rest tail := by
  refine ⟨closing.follows, closing.closed, closing.plain, fun last same =>
    closing.bare last ?_⟩
  cases rest with
  | nil => cases same
  | cons next others => exact same

theorem follows_attrs {attrs : List Attr} (valid : ∀ attr ∈ attrs, attr.valid = true)
    (closing : Closing attrs tail) :
    Follows (cut (attrs.flatMap Attr.text ++ tail)) ∧ (attrs ≠ [] →
      ∀ char ∈ (cut (attrs.flatMap Attr.text ++ tail)).head?, isSpace char = true) := by
  cases attrs with
  | nil =>
    rw [flatMap_nil, nil_append, cut_closed closing.closed]
    exact ⟨closing.follows, fun absurd_ => absurd rfl absurd_⟩
  | cons attr rest =>
    have parts := attr_parts (valid attr mem_cons_self)
    have shape : ∃ behind, cut ((attr :: rest).flatMap Attr.text ++ tail) =
        attr.space ++ (attr.name ++ behind) := by
      rw [flatMap_cons, Attr.text, append_assoc, append_assoc, append_assoc,
        cut_append _ (space_closed parts.space), cut_append _ parts.closed]
      exact ⟨_, rfl⟩
    obtain ⟨behind, same⟩ := shape
    rw [same]
    have first : ∀ char ∈ (attr.space ++ (attr.name ++ behind)).head?, isSpace char = true := by
      intro char head
      cases space : attr.space with
      | nil => exact absurd space parts.spaced
      | cons start others =>
        have spaces := parts.space
        rw [space] at spaces head
        cases head
        exact all_eq_true.mp spaces _ mem_cons_self
    refine ⟨⟨fun char head => .inl (first char head), ?_⟩, fun _ => first⟩
    rw [dropWhile_all parts.space]
    cases name : attr.name with
    | nil => exact absurd name parts.named
    | cons start others =>
      have word := parts.name start (by rw [name]; exact mem_cons_self)
      rw [cons_append, dropWhile_cons, word.1]
      intro equal
      exact word.2 (Option.some.inj equal)

variable {key : List Char} (letters : ∀ char ∈ key, char.isAlpha = true) (some_ : key ≠ [])

include letters some_

/-- The scanner finds the value that is given for a name, or it finds none since the tag was cut
off. -/
theorem scan_attrs {attrs : List Attr} (boundary : Bool) (valid : ∀ attr ∈ attrs, attr.valid = true)
    (quiet : quietUpTo key attrs = true) (closing : Closing attrs tail) :
    attrScan key boundary (cut (attrs.flatMap Attr.text ++ tail)) = givenValue key attrs ∨
      '>' ∈ attrs.flatMap Attr.text ∧
        attrScan key boundary (cut (attrs.flatMap Attr.text ++ tail)) = none := by
  induction attrs generalizing boundary with
  | nil =>
    left
    have scanned := scan_silent
      (silent_plain letters some_ boundary [] closing.plain)
    rw [append_nil] at scanned
    rw [flatMap_nil, nil_append, cut_closed closing.closed, scanned]
    rfl
  | cons attr rest ih =>
    rw [forall_mem_cons] at valid
    rw [quietUpTo, Bool.or_eq_true, Bool.and_eq_true] at quiet
    rcases attr_cut valid.1 with closed | ⟨marked, given, quote, text, behind, found, worded,
      stopped⟩
    · obtain ⟨follows, spaced⟩ := follows_attrs valid.2 closing.rest
      rw [flatMap_cons, append_assoc, cut_append _ closed]
      have bare : ∀ given ∈ attr.given, given.value.isBare = true →
          ∀ char ∈ (cut (rest.flatMap Attr.text ++ tail)).head?, isSpace char = true := by
        intro given found bare
        cases rest with
        | nil =>
          rw [flatMap_nil, nil_append, cut_closed closing.closed]
          exact closing.bare attr rfl given found bare
        | cons next others => exact spaced (cons_ne_nil _ _)
      by_cases gives : attr.gives key = true
      · left
        rw [scan_gives letters some_ boundary valid.1 gives bare, givenValue,
          find?_cons_of_pos gives]
        rfl
      · rw [Bool.not_eq_true] at gives
        obtain ⟨hushed, others⟩ := quiet.resolve_left (by rw [gives]; exact Bool.false_ne_true)
        have skipped : givenValue key (attr :: rest) = givenValue key rest := by
          rw [givenValue, find?_cons_of_neg (by rw [gives]; exact Bool.false_ne_true)]
          rfl
        rw [scan_other letters some_ boundary valid.1 gives hushed follows, skipped,
          mem_append]
        exact (ih true valid.2 others closing.rest).imp_right
          fun missed => ⟨.inr missed.1, missed.2⟩
    · right
      rw [flatMap_cons, append_assoc, stopped,
        scan_cut_off letters some_ boundary valid.1 found worded
          (quiet.imp_right And.left)]
      exact ⟨mem_append_left _ marked, rfl⟩

end Tags

end OnlyJs.Serve.HeadMeta
