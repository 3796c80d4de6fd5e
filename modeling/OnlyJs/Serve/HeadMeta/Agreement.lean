import OnlyJs.Serve.HeadMeta.Attributes

/-!
# Where the scanner agrees with the page

The scanner takes tags, comments and elements for what they are as long as no `>` in quotes is
taken for the end of a tag and no text for a tag.
-/

namespace OnlyJs.Serve.HeadMeta

open Lib List

/-- What stands behind the first `>` of a tag, up to its end. -/
def left (text : List Char) : List Char := ((text ++ ['>']).dropWhile fun char => char ≠ '>').tail

def StartTag.legible (start : StartTag) : Bool :=
  (!eqIgnoreCase start.name "meta".toList ||
    quietUpTo "name".toList start.attrs && quietUpTo "property".toList start.attrs) &&
  (!eqIgnoreCase start.name "link".toList || quietUpTo "rel".toList start.attrs)

def Kind.conflict : Kind → Conflict
  | title => .title
  | canonical => .canonicalLink
  | named key => .metaTag key

section Tags

theorem cut_left (text : List Char) : text ++ ['>'] = cut text ++ '>' :: left text := by
  unfold cut left
  induction text with
  | nil => rfl
  | cons char text ih =>
    by_cases mark : char = '>'
    · rw [mark]
      rfl
    · have other : decide (char ≠ '>') = true := decide_eq_true mark
      rw [cons_append, takeWhile_cons, dropWhile_cons, other]
      exact congrArg (List.cons char) ih

theorem cut_free (text : List Char) : '>' ∉ cut text := by
  intro member
  exact absurd (mem_takeWhile_imp member) (by decide)

theorem left_closed {text : List Char} (closed : '>' ∉ text) : left text = [] := by
  have split := cut_left text
  rw [cut_closed closed] at split
  exact (List.cons.inj (append_cancel_left split)).2.symm

theorem isName_parts {name : List Char} (named : isName name = true) :
    ∃ first rest, name = first :: rest ∧ first.isAlpha = true ∧
      ∀ char ∈ name, isNameChar char = true := by
  unfold isName at named
  rw [Bool.and_eq_true, all_eq_true] at named
  cases name with
  | nil => cases named.1
  | cons first rest => exact ⟨first, rest, rfl, named.1, named.2⟩

structure TagParts (start : StartTag) : Prop where
  named : isName start.name = true
  attrs : ∀ attr ∈ start.attrs, attr.valid = true
  gap : start.gap.all isSpace = true
  distinct : start.attrs.Pairwise fun first second => eqIgnoreCase first.name second.name = false
  bare : (start.slash && start.gap.isEmpty && start.endsBare) = false

variable {start : StartTag}

theorem tag_parts (valid : start.valid = true) : TagParts start := by
  unfold StartTag.valid at valid
  rw [Bool.and_eq_true, Bool.and_eq_true, Bool.and_eq_true, Bool.and_eq_true, all_eq_true,
    decide_eq_true_eq, Bool.not_eq_true'] at valid
  obtain ⟨⟨⟨⟨named, attrs⟩, gap⟩, distinct⟩, bare⟩ := valid
  exact ⟨named, attrs, gap, distinct, bare⟩

/-- What closes a tag is no part of its attributes. -/
theorem closing_tag (parts : TagParts start) :
    Closing start.attrs (start.gap ++ if start.slash then ['/'] else []) := by
  have spaced (char : Char) (member : char ∈ start.gap) : isSpace char = true :=
    all_eq_true.mp parts.gap char member
  have slashed (char : Char) (member : char ∈ if start.slash then ['/'] else []) :
      char = '/' := by
    split at member
    · exact mem_singleton.mp member
    · cases member
  have each (char : Char) (member : char ∈ start.gap ++ if start.slash then ['/'] else []) :
      isSpace char = true ∨ char = '/' :=
    (mem_append.mp member).imp (spaced char) (slashed char)
  refine ⟨⟨fun char head => each char (mem_of_mem_head? head), ?_⟩, ?_, ?_, ?_⟩
  · rw [dropWhile_all parts.gap]
    split <;> decide
  · intro member
    rcases each _ member with space | same
    · exact absurd space (by decide)
    · exact absurd same (by decide)
  · intro char member
    rcases each _ member with space | rfl
    · exact (space_plain space).1
    · rfl
  · intro attr last given found bare char head
    cases gap : start.gap with
    | nil =>
      have ends : start.endsBare = true := by
        unfold StartTag.endsBare
        rw [Option.any_eq_true]
        refine ⟨attr, last, ?_⟩
        rw [found]
        exact bare
      have slash : start.slash = false := by
        have free := parts.bare
        rw [gap, ends] at free
        simpa using free
      rw [gap, slash] at head
      cases head
    | cons space others =>
      rw [gap] at head
      cases head
      exact spaced _ (by rw [gap]; exact mem_cons_self)

theorem eqIgnoreCase_iff {first second : List Char} :
    eqIgnoreCase first second = true ↔ first.map Char.toLower = second.map Char.toLower :=
  beq_iff_eq

theorem attr_given (parts : TagParts start) (name : String) :
    start.attr name = givenValue name.toList start.attrs := by
  have distinct := parts.distinct
  unfold StartTag.attr givenValue
  generalize start.attrs = attrs at distinct
  induction attrs with
  | nil => rfl
  | cons attr rest ih =>
    obtain ⟨apart, others⟩ := pairwise_cons.mp distinct
    by_cases named : attr.isNamed name.toList = true
    · rw [find?_cons_of_pos named]
      cases found : attr.given with
      | some given =>
        have gives : attr.gives name.toList = true := by
          rw [Attr.gives, named, found]
          rfl
        rw [find?_cons_of_pos gives]
      | none =>
        have passed : attr.gives name.toList = false := by
          rw [Attr.gives, found]
          exact Bool.and_false _
        have alone : rest.find? (Attr.gives name.toList) = none := by
          rw [find?_eq_none]
          intro other member gives
          unfold Attr.gives Attr.isNamed at gives
          rw [Bool.and_eq_true] at gives
          have equal := eqIgnoreCase_iff.mpr ((eqIgnoreCase_iff.mp named).trans
            (eqIgnoreCase_iff.mp gives.1).symm)
          rw [apart other member] at equal
          cases equal
        rw [find?_cons_of_neg (by rw [passed]; exact Bool.false_ne_true), alone,
          Option.bind_some, found]
        rfl
    · have passed : attr.gives name.toList = false := by
        rw [Attr.gives, Bool.not_eq_true _ |>.mp named]
        rfl
      rw [find?_cons_of_neg named,
        find?_cons_of_neg (by rw [passed]; exact Bool.false_ne_true)]
      exact ih others

theorem attr_read (parts : TagParts start) {name : String}
    (letters : name.toList.all Char.isAlpha = true) (some_ : name.toList ≠ [])
    (quiet : quietUpTo name.toList start.attrs = true) :
    attrValue (cut start.inner) name = start.attr name ∨
      '>' ∈ start.inner ∧ attrValue (cut start.inner) name = none := by
  unfold attrValue
  rw [if_neg (by rw [List.isEmpty_iff]; exact some_), attr_given parts]
  have found := scan_attrs (all_eq_true.mp letters) some_ true parts.attrs quiet (closing_tag parts)
  exact found.imp_right fun missed => ⟨mem_append_left _ missed.1, missed.2⟩

theorem any_read {read real : Option (List Char)} {cut_ : Prop} (test : List Char → Bool)
    (agree : read = real ∨ cut_ ∧ read = none) :
    (read.any test = true → real.any test = true) ∧ (¬ cut_ → read.any test = real.any test) := by
  rcases agree with rfl | ⟨stopped, rfl⟩
  · exact ⟨id, fun _ => rfl⟩
  · exact ⟨nofun, fun whole => absurd stopped whole⟩

/-- A legible tag is only taken for what it is, and it is if nothing cuts it off. -/
theorem covers_has (valid : start.valid = true) (raw : isRaw start.name = false)
    (legible : start.legible = true) (kind : Kind) :
    (kind.conflict.covers start.name (cut start.inner) = true →
        kind.has id (.tag start) = true) ∧
      ('>' ∉ start.inner →
        kind.conflict.covers start.name (cut start.inner) = kind.has id (.tag start)) := by
  have parts := tag_parts valid
  unfold StartTag.legible at legible
  rw [Bool.and_eq_true, Bool.or_eq_true, Bool.or_eq_true, Bool.and_eq_true] at legible
  obtain ⟨metas, links⟩ := legible
  cases kind with
  | title =>
    have other : eqIgnoreCase start.name "title".toList = false := by
      exact (Bool.or_eq_false_iff.mp raw).2
    rw [Kind.conflict, Conflict.covers, other]
    exact ⟨nofun, fun _ => rfl⟩
  | canonical =>
    rw [Kind.conflict, Conflict.covers, Kind.has]
    by_cases named : eqIgnoreCase start.name "link".toList = true
    · have quiet := links.resolve_left (by rw [named]; nofun)
      have read := any_read (fun value => eqIgnoreCase value "canonical".toList)
        (attr_read parts (by decide) (by decide) quiet)
      rw [named]
      exact read
    · rw [Bool.not_eq_true] at named
      rw [named]
      exact ⟨nofun, fun _ => rfl⟩
  | named key =>
    rw [Kind.conflict, Conflict.covers, Kind.has]
    by_cases named : eqIgnoreCase start.name "meta".toList = true
    · obtain ⟨first, second⟩ := metas.resolve_left (by rw [named]; nofun)
      have byName := any_read (fun value => eqIgnoreCase value key.toList)
        (attr_read parts (by decide) (by decide) first)
      have byProperty := any_read (fun value => eqIgnoreCase value key.toList)
        (attr_read parts (by decide) (by decide) second)
      rw [named, Bool.true_and, Bool.true_and]
      simp only [any_cons, any_nil, Bool.or_false, Bool.or_eq_true, id]
      refine ⟨fun covered => covered.imp byName.1 byProperty.1, fun whole => ?_⟩
      rw [byName.2 whole, byProperty.2 whole]
    · rw [Bool.not_eq_true] at named
      rw [named]
      exact ⟨nofun, fun _ => rfl⟩

end Tags

section Elements

theorem find_text_mark {mark : Char} {needle : String} (same : needle.toList = [mark])
    {before : List Char} (after : List Char) (unmarked : mark ∉ before) :
    findText (before ++ mark :: after) needle = some before.length := by
  unfold findText
  rw [same]
  exact Text.find_mark after unmarked

variable {start : StartTag}

theorem inner_head (parts : TagParts start) :
    ∀ char ∈ (cut start.inner ++ ['>']).head?, isNameChar char = false := by
  intro char head
  obtain ⟨follows, _⟩ := follows_attrs parts.attrs (closing_tag parts)
  cases inner : cut start.inner with
  | nil =>
    rw [inner] at head
    cases head
    decide
  | cons first rest =>
    rw [inner] at head
    cases head
    have here : char ∈ (cut (start.attrs.flatMap Attr.text ++
        (start.gap ++ if start.slash then ['/'] else []))).head? := by
      change char ∈ (cut start.inner).head?
      rw [inner]
      rfl
    rcases follows.head char here with space | rfl
    · exact (space_plain space).2.1
    · rfl

theorem takeWhile_name {name behind : List Char} (named : ∀ char ∈ name, isNameChar char = true)
    (stop : ∀ char ∈ behind.head?, isNameChar char = false) :
    (name ++ behind).takeWhile isNameChar = name := by
  rw [takeWhile_append_of_pos named]
  cases behind with
  | nil => exact append_nil _
  | cons char behind =>
    rw [takeWhile_cons, stop char rfl]
    exact append_nil _

theorem start_text (start : StartTag) (rest : List Char) :
    start.text ++ rest =
      '<' :: (start.name ++ (cut start.inner ++ '>' :: (left start.inner ++ rest))) := by
  unfold StartTag.text
  rw [cut_left]
  simp only [cons_append, append_assoc]

/-- A start tag is read up to its first `>`. -/
theorem element_start (valid : start.valid = true) (rest : List Char) :
    elementAt (start.text ++ rest) =
      if isRaw start.name then
        some ⟨if isOpaque start.name then ['!'] else start.name, cut start.inner,
          closedLen (start.text ++ rest) start.name
            (start.name.length + 1 + (cut start.inner).length)⟩
      else some ⟨start.name, cut start.inner,
        start.name.length + 1 + (cut start.inner).length + 1⟩ := by
  have parts := tag_parts valid
  obtain ⟨first, others, named, letter, chars⟩ := isName_parts parts.named
  have closed : '>' ∉ '<' :: (start.name ++ cut start.inner) := by
    rw [mem_cons, mem_append, not_or, not_or]
    refine ⟨by decide, fun member => absurd (chars _ member) (by decide), cut_free _⟩
  have whole : start.text ++ rest =
      ('<' :: (start.name ++ cut start.inner)) ++ '>' :: (left start.inner ++ rest) := by
    rw [start_text, cons_append, append_assoc]
  have found : findText (start.text ++ rest) ">" =
      some (start.name.length + 1 + (cut start.inner).length) := by
    rw [whole, find_text_mark (by decide) _ closed, length_cons, length_append]
    congr 1
    omega
  have opened : startsText (start.text ++ rest) "<" = true := by
    rfl
  have other (needle : String) (mark : Char) (more : List Char)
      (same : needle.toList = '<' :: mark :: more) (plain : mark.isAlpha = false) :
      startsText (start.text ++ rest) needle = false := by
    unfold startsText
    rw [start_text, same, named, cons_append, List.isPrefixOf, List.isPrefixOf]
    have apart : (mark == first) = false := by
      rw [beq_eq_false_iff_ne]
      rintro rfl
      rw [letter] at plain
      cases plain
    rw [apart, Bool.false_and, Bool.and_false]
  have taken : ((start.text ++ rest).drop 1).takeWhile isNameChar = start.name := by
    rw [start_text]
    apply takeWhile_name chars
    intro char head
    apply inner_head parts
    cases inner : cut start.inner with
    | nil | cons next more =>
      rw [inner] at head
      exact head
  have named_ : start.name.isEmpty = false := by
    rw [named]
    rfl
  have attrs : ((start.text ++ rest).take (start.name.length + 1 +
      (cut start.inner).length)).drop (start.name.length + 1) = cut start.inner := by
    rw [start_text, ← append_assoc, ← cons_append]
    have front : ('<' :: (start.name ++ cut start.inner)).length =
        start.name.length + 1 + (cut start.inner).length := by
      rw [length_cons, length_append]
      omega
    rw [← front, take_left]
    exact drop_left
  unfold elementAt
  rw [opened, other "<!--" '!' ['-', '-'] (by decide) (by decide),
    other "<!" '!' [] (by decide) (by decide), other "<?" '?' [] (by decide) (by decide),
    other "</" '/' [] (by decide) (by decide)]
  dsimp only
  rw [taken, named_, found]
  simp only [Bool.not_true, Bool.false_eq_true, if_false, Bool.or_self, Option.map_some, attrs]
  unfold isRaw
  split
  · rfl
  · rfl

theorem start_length (start : StartTag) :
    start.text.length =
      start.name.length + 1 + (cut start.inner).length + 1 + (left start.inner).length := by
  have whole := congrArg List.length (start_text start [])
  simp only [append_nil, length_cons, length_append] at whole
  rw [whole]
  omega

variable {content : List Char}

/-- The end tag of an element stands where the scanner looks for it. -/
theorem closed_element {stop : EndTag} (closes : stop.valid = true)
    (same : eqIgnoreCase stop.name start.name = true)
    (clear : Text.Clear sameLetter ('<' :: '/' :: start.name) (left start.inner ++
      content) stop.text)
    (rest : List Char) :
    closedLen (start.text ++ (content ++ (stop.text ++ rest))) start.name
        (start.name.length + 1 + (cut start.inner).length) =
      (start.text ++ (content ++ stop.text)).length := by
  obtain ⟨long, here⟩ := starts_whole.mp same
  unfold EndTag.valid at closes
  rw [Bool.and_eq_true] at closes
  have chars := (isName_parts closes.1)
  obtain ⟨_, _, _, _, chars⟩ := chars
  have starts : Text.starts sameLetter ('<' :: '/' :: start.name) stop.text = true := by
    unfold EndTag.text
    rw [Text.starts, Text.starts, Text.starts_append _ (Nat.le_of_eq long.symm), here]
    decide
  have reach : ('<' :: '/' :: start.name).length ≤ stop.text.length := by
    unfold EndTag.text
    simp only [length_cons, length_append]
    omega
  have after : (start.text ++ (content ++ (stop.text ++ rest))).drop
      (start.name.length + 1 + (cut start.inner).length + 1) =
        (left start.inner ++ content) ++ (stop.text ++ rest) := by
    have front : ('<' :: (start.name ++ (cut start.inner ++ ['>']))).length =
        start.name.length + 1 + (cut start.inner).length + 1 := by
      simp only [length_cons, length_append, length_nil]
      omega
    have whole : start.text ++ (content ++ (stop.text ++ rest)) =
        ('<' :: (start.name ++ (cut start.inner ++ ['>']))) ++
          ((left start.inner ++ content) ++ (stop.text ++ rest)) := by
      rw [start_text]
      simp only [cons_append, append_assoc, nil_append]
    rw [whole, ← front, drop_left]
  have found := Text.find_clear (cons_ne_nil _ _) (Text.clear_behind rest reach clear)
    (by rw [Text.starts_append _ reach]; exact starts)
  have behind : (start.text ++ (content ++ (stop.text ++ rest))).drop
      (start.name.length + 1 + (cut start.inner).length + 1 +
        (left start.inner ++ content).length) = stop.text ++ rest := by
    rw [← drop_drop, after, drop_left]
  have ended : findText (stop.text ++ rest) ">" =
      some ('<' :: '/' :: (stop.name ++ stop.gap)).length := by
    have whole : stop.text ++ rest =
        ('<' :: '/' :: (stop.name ++ stop.gap)) ++ '>' :: rest := by
      unfold EndTag.text
      simp only [cons_append, append_assoc, nil_append]
    rw [whole]
    apply find_text_mark (by decide)
    simp only [mem_cons, mem_append, not_or]
    exact ⟨by decide, by decide, fun member => absurd (chars _ member) (by decide),
      space_closed closes.2⟩
  unfold closedLen
  rw [after, found]
  dsimp only
  rw [behind, ended]
  simp only [length_append, length_cons, start_length, EndTag.text, length_nil]
  omega

theorem comment_element (valid : (Node.comment content).valid = true) (rest : List Char) :
    elementAt ((Node.comment content).print ++ rest) =
      some (Element.never (Node.comment content).print.length) := by
  rw [Node.valid, Bool.and_eq_true, decide_eq_true_eq] at valid
  have whole : (Node.comment content).print ++ rest =
      ("<!--".toList ++ content) ++ ("-->".toList ++ rest) := by
    rw [Node.print, append_assoc, append_assoc, append_assoc]
  have starts : Text.starts (· == ·) "-->".toList ("-->".toList ++ rest) = true := by
    rw [Text.starts_append _ (Nat.le_refl _)]
    decide
  have found := Text.find_clear (by decide)
    (Text.clear_behind rest (Nat.le_refl _) valid.1) starts
  unfold elementAt
  rw [whole]
  unfold findText
  rw [found, Node.print]
  simp only [length_append]
  rfl

/-- So are texts that start with a mark and end with the first `>`. -/
theorem marked_element (mark : Char)
    (marks : mark = '!' ∧ startsText content "--" = false ∨ mark = '?' ∨ mark = '/')
    (closed : '>' ∉ content) (rest : List Char) :
    elementAt ('<' :: mark :: (content ++ '>' :: rest)) =
      some (Element.never ('<' :: mark :: (content ++ ['>'])).length) := by
  have found : findText ('<' :: mark :: (content ++ '>' :: rest)) ">" =
      some ('<' :: mark :: content).length := by
    rw [← cons_append, ← cons_append]
    apply find_text_mark (by decide)
    simp only [mem_cons, not_or]
    refine ⟨by decide, ?_, closed⟩
    rcases marks with ⟨rfl, _⟩ | rfl | rfl <;> decide
  have opened : startsText ('<' :: mark :: (content ++ '>' :: rest)) "<" = true := rfl
  have passed : startsText ('<' :: mark :: (content ++ '>' :: rest)) "<!--" = false := by
    unfold startsText
    have needle : "<!--".toList = ['<', '!', '-', '-'] := by decide
    rw [needle]
    rcases marks with ⟨rfl, plain⟩ | rfl | rfl
    · unfold startsText at plain
      cases content with
      | nil => rfl
      | cons first content =>
        cases content with
        | nil =>
          exact Bool.and_false _
        | cons second content => exact plain
    · rfl
    · rfl
  have marked : (startsText ('<' :: mark :: (content ++ '>' :: rest)) "<!" ||
      startsText ('<' :: mark :: (content ++ '>' :: rest)) "<?" ||
        startsText ('<' :: mark :: (content ++ '>' :: rest)) "</") = true := by
    rcases marks with ⟨rfl, _⟩ | rfl | rfl <;> rfl
  unfold elementAt
  rw [opened, passed, marked, found]
  simp only [Bool.not_true, Bool.false_eq_true, if_false, if_true, Option.map_some,
    length_append, length_cons, length_nil]

end Elements

section Condition

variable (decode : List Char → List Char) (obj : Meta)

/-- The scanner takes the node for what it is. A tag in whose quotes a `>` stands is none that the
metadata replaces, and no tag starts behind the `>`. -/
def Node.Readable : Node → Prop
  | .tag start =>
    start.legible = true ∧
      (∀ entry ∈ obj.kinds, entry.1.has decode (.tag start) = entry.1.has id (.tag start)) ∧
      ('>' ∈ start.inner → '<' ∉ left start.inner ∧
        ∀ entry ∈ obj.kinds, entry.1.has id (.tag start) = false)
  | .element start content stop =>
    Text.Clear sameLetter ('<' :: '/' :: start.name) (left start.inner ++ content) stop.text
  | _ => True

end Condition

section Stripping

variable {decode : List Char → List Char} {obj : Meta} {wants : List Conflict}

theorem strip_text {content : List Char} (fuel : Nat) (rest : List Char)
    (plain : '<' ∉ content) :
    stripFrom wants fuel (content ++ rest) = content ++ stripFrom wants fuel rest := by
  cases fuel with
  | zero => rfl
  | succ fuel =>
    have skipped : findText (content ++ rest) "<" =
        (findText rest "<").map (content.length + ·) := by
      apply Text.find_skip
      intro char member
      rw [beq_eq_false_iff_ne]
      rintro rfl
      exact plain member
    rw [stripFrom, stripFrom, skipped]
    cases findText rest "<" with
    | none => rfl
    | some place =>
      rw [Option.map_some]
      dsimp only
      rw [take_length_add_append, drop_length_add_append, append_assoc]

theorem strip_element {el : Element} {text : List Char} (fuel : Nat) (rest : List Char)
    (found : elementAt ('<' :: (text ++ rest)) = some el) (long : el.len = text.length + 1) :
    stripFrom wants (fuel + 1) ('<' :: (text ++ rest)) =
      (if wants.any fun want => want.covers el.name el.attrs then [] else '<' :: text) ++
        stripFrom wants fuel rest := by
  have here : findText ('<' :: (text ++ rest)) "<" = some 0 := rfl
  have taken : ('<' :: (text ++ rest)).take (text.length + 1) = '<' :: text := by
    rw [take_succ_cons, take_left]
  have dropped : ('<' :: (text ++ rest)).drop (text.length + 1) = rest := by
    rw [drop_succ_cons, drop_left]
  rw [stripFrom, here]
  dsimp only
  rw [take_zero, drop_zero, found]
  dsimp only
  rw [nil_append, long, taken, dropped]

theorem mark_uncovered (want : Conflict) (attrs : List Char) :
    want.covers ['!'] attrs = false := by
  have title : eqIgnoreCase ['!'] "title".toList = false := by decide
  cases want with
  | title => exact title
  | canonicalLink | metaTag key =>
    rfl

theorem other_name {name : List Char} {first second : String}
    (named : eqIgnoreCase name first.toList = true)
    (apart : first.toList.map Char.toLower ≠ second.toList.map Char.toLower) :
    eqIgnoreCase name second.toList = false := by
  rw [← Bool.not_eq_true, eqIgnoreCase_iff]
  intro same
  exact apart ((eqIgnoreCase_iff.mp named).symm.trans same)

variable {start : StartTag}

theorem covers_element (raw : isRaw start.name = true) (kind : Kind) (content attrs : List Char)
    (stop : EndTag) :
    kind.conflict.covers (if isOpaque start.name then ['!'] else start.name) attrs =
      kind.has decode (.element start content stop) := by
  unfold isRaw at raw
  by_cases hidden : isOpaque start.name = true
  · rw [if_pos hidden, mark_uncovered]
    unfold isOpaque at hidden
    rw [Bool.or_eq_true] at hidden
    cases kind with
    | title =>
      rcases hidden with named | named
      · exact (other_name named (by decide)).symm
      · exact (other_name named (by decide)).symm
    | canonical => rfl
    | named key => rfl
  · rw [if_neg hidden]
    rw [Bool.not_eq_true] at hidden
    rw [hidden] at raw
    cases kind with
    | title => rfl
    | canonical | named key =>
      rw [Kind.conflict, Conflict.covers, other_name raw (by decide)]
      rfl

theorem covers_any (wanted : ∀ want, want ∈ wants ↔ ∃ entry ∈ obj.kinds, entry.1.conflict = want)
    (name attrs : List Char) :
    (wants.any fun want => want.covers name attrs) =
      obj.kinds.any fun entry => entry.1.conflict.covers name attrs := by
  rw [Bool.eq_iff_iff, any_eq_true, any_eq_true]
  constructor
  · rintro ⟨want, member, covered⟩
    obtain ⟨entry, listed, rfl⟩ := (wanted want).mp member
    exact ⟨entry, listed, covered⟩
  · rintro ⟨entry, listed, covered⟩
    exact ⟨_, (wanted _).mpr ⟨entry, listed, rfl⟩, covered⟩

theorem never_replaced {node : Node} (other : ∀ kind : Kind, kind.has decode node = false) :
    obj.replaces decode node = false := by
  unfold Meta.replaces
  rw [any_eq_false]
  intro entry _
  rw [other]
  exact Bool.false_ne_true

theorem any_congr_kinds (first second : Kind → Bool)
    (same : ∀ entry ∈ obj.kinds, first entry.1 = second entry.1) :
    (obj.kinds.any fun entry => first entry.1) = obj.kinds.any fun entry => second entry.1 := by
  rw [Bool.eq_iff_iff, any_eq_true, any_eq_true]
  constructor
  · rintro ⟨entry, listed, holds⟩
    exact ⟨entry, listed, (same entry listed).symm.trans holds⟩
  · rintro ⟨entry, listed, holds⟩
    exact ⟨entry, listed, (same entry listed).trans holds⟩

theorem strip_tag (valid : (Node.tag start).valid = true)
    (readable : (Node.tag start).Readable decode obj)
    (wanted : ∀ want, want ∈ wants ↔ ∃ entry ∈ obj.kinds, entry.1.conflict = want) (fuel : Nat)
    (rest : List Char) :
    stripFrom wants (fuel + 1) (start.text ++ rest) =
      (if obj.replaces decode (.tag start) then [] else start.text) ++
        stripFrom wants fuel rest := by
  rw [Node.valid, Bool.and_eq_true, Bool.not_eq_true'] at valid
  obtain ⟨valid, raw⟩ := valid
  obtain ⟨legible, decoded, stopped⟩ := readable
  have split : start.text ++ rest = '<' :: ((start.name ++ (cut start.inner ++ ['>'])) ++
      (left start.inner ++ rest)) := by
    rw [start_text]
    simp only [append_assoc, singleton_append]
  have whole : start.text = '<' :: ((start.name ++ (cut start.inner ++ ['>'])) ++
      left start.inner) := by
    have printed := start_text start []
    rw [append_nil, append_nil] at printed
    rw [printed]
    simp only [append_assoc, singleton_append]
  have found := element_start valid rest
  rw [raw, split] at found
  have plain : '<' ∉ left start.inner := by
    by_cases marked : '>' ∈ start.inner
    · exact (stopped marked).1
    · rw [left_closed marked]
      exact not_mem_nil
  have replaced : (wants.any fun want => want.covers start.name (cut start.inner)) =
      obj.replaces decode (.tag start) := by
    rw [covers_any wanted]
    apply any_congr_kinds (fun kind => kind.conflict.covers start.name (cut start.inner))
      fun kind => kind.has decode (.tag start)
    intro entry listed
    obtain ⟨sound, same⟩ := covers_has valid raw legible entry.1
    rw [decoded entry listed]
    by_cases marked : '>' ∈ start.inner
    · have none_ := (stopped marked).2 entry listed
      rw [none_, ← Bool.not_eq_true]
      intro covered
      rw [sound covered] at none_
      cases none_
    · exact same marked
  rw [split, strip_element fuel _ found (by
    simp only [length_append, length_cons, length_nil]
    omega), strip_text fuel rest plain]
  rw [replaced]
  split
  · rename_i gone
    obtain ⟨entry, listed, has⟩ := any_eq_true.mp gone
    have closed : '>' ∉ start.inner := by
      intro marked
      have none_ := (stopped marked).2 entry listed
      rw [← decoded entry listed, has] at none_
      cases none_
    rw [left_closed closed]
    rfl
  · rw [whole]
    simp only [cons_append, append_assoc]

theorem strip_raw {content : List Char} {stop : EndTag}
    (valid : (Node.element start content stop).valid = true)
    (readable : (Node.element start content stop).Readable decode obj)
    (wanted : ∀ want, want ∈ wants ↔ ∃ entry ∈ obj.kinds, entry.1.conflict = want) (fuel : Nat)
    (rest : List Char) :
    stripFrom wants (fuel + 1) ((Node.element start content stop).print ++ rest) =
      (if obj.replaces decode (.element start content stop) then []
        else (Node.element start content stop).print) ++ stripFrom wants fuel rest := by
  rw [Node.valid, Bool.and_eq_true, Bool.and_eq_true, Bool.and_eq_true, Bool.and_eq_true] at valid
  obtain ⟨⟨⟨⟨valid, raw⟩, closes⟩, same⟩, _⟩ := valid
  have found := element_start valid (content ++ (stop.text ++ rest))
  rw [if_pos raw, closed_element closes same readable] at found
  have replaced (attrs : List Char) : (wants.any fun want => want.covers
      (if isOpaque start.name then ['!'] else start.name) attrs) =
        obj.replaces decode (.element start content stop) := by
    rw [covers_any wanted]
    apply any_congr_kinds (fun kind => kind.conflict.covers
      (if isOpaque start.name then ['!'] else start.name) attrs)
      fun kind => kind.has decode (.element start content stop)
    intro entry _
    exact covers_element raw entry.1 content attrs stop
  have split : (Node.element start content stop).print ++ rest =
      '<' :: ((start.name ++ (start.inner ++ ['>']) ++ (content ++ stop.text)) ++ rest) := by
    rw [Node.print, StartTag.text]
    simp only [cons_append]
  have whole : (Node.element start content stop).print =
      '<' :: (start.name ++ (start.inner ++ ['>']) ++ (content ++ stop.text)) := by
    rw [Node.print, StartTag.text]
    simp only [cons_append]
  have here : start.text ++ (content ++ (stop.text ++ rest)) =
      '<' :: ((start.name ++ (start.inner ++ ['>']) ++ (content ++ stop.text)) ++ rest) := by
    rw [StartTag.text]
    simp only [cons_append, append_assoc]
  have long : (start.text ++ (content ++ stop.text)).length =
      (start.name ++ (start.inner ++ ['>']) ++ (content ++ stop.text)).length + 1 := by
    rw [StartTag.text, cons_append, length_cons]
  rw [here] at found
  rw [split, strip_element fuel _ found long, whole]
  rw [replaced]

theorem strip_never {text : List Char} {node : Node} (fuel : Nat) (rest : List Char)
    (printed : node.print = '<' :: text)
    (found : elementAt (node.print ++ rest) = some (Element.never node.print.length))
    (other : ∀ kind : Kind, kind.has decode node = false) :
    stripFrom wants (fuel + 1) (node.print ++ rest) =
      (if obj.replaces decode node then [] else node.print) ++ stripFrom wants fuel rest := by
  rw [printed, cons_append] at found ⊢
  rw [strip_element fuel rest found rfl, never_replaced other]
  have uncovered : (wants.any fun want => want.covers
      (Element.never ('<' :: text).length).name (Element.never ('<' :: text).length).attrs) =
        false := by
    rw [any_eq_false]
    intro want _
    exact ne_true_of_eq_false (mark_uncovered want [])
  rw [uncovered]

/-- A node that the scanner takes for what it is is kept, or replaced. -/
theorem strip_node {node : Node} (valid : node.valid = true) (readable : node.Readable decode obj)
    (wanted : ∀ want, want ∈ wants ↔ ∃ entry ∈ obj.kinds, entry.1.conflict = want)
    {fuel : Nat} (rest : List Char) (enough : (node.print ++ rest).length ≤ fuel) :
    ∃ less, rest.length ≤ less ∧ stripFrom wants fuel (node.print ++ rest) =
      (if obj.replaces decode node then [] else node.print) ++ stripFrom wants less rest := by
  rw [length_append] at enough
  have further {text : List Char} (printed : node.print = '<' :: text) :
      ∃ less, fuel = less + 1 ∧ rest.length ≤ less := by
    rw [printed, length_cons] at enough
    exact ⟨fuel - 1, by omega, by omega⟩
  cases node with
  | text content =>
    rw [Node.valid, Bool.not_eq_true', ← Bool.not_eq_true, contains_iff_mem] at valid
    have kept : obj.replaces decode (.text content) = false :=
      never_replaced fun kind => by cases kind <;> rfl
    rw [kept]
    exact ⟨fuel, by omega, strip_text fuel rest valid⟩
  | comment content =>
    obtain ⟨less, rfl, room⟩ := further (by rw [Node.print]; rfl)
    exact ⟨less, room, strip_never less rest (by rw [Node.print]; rfl)
      (comment_element valid rest) fun kind => by cases kind <;> rfl⟩
  | declaration mark content =>
    obtain ⟨less, rfl, room⟩ := further rfl
    rw [Node.valid, Bool.and_eq_true, Bool.not_eq_true', ← Bool.not_eq_true,
      contains_iff_mem, Bool.or_eq_true, Bool.and_eq_true, decide_eq_true_eq,
      decide_eq_true_eq, Bool.not_eq_true'] at valid
    have found :=
      marked_element mark (valid.1.elim (fun same => .inr (.inl same)) .inl) valid.2 rest
    refine ⟨less, room, strip_never less rest rfl ?_ fun kind => by cases kind <;> rfl⟩
    rw [Node.print, cons_append, cons_append, append_assoc]
    exact found
  | close stop =>
    obtain ⟨less, rfl, room⟩ := further rfl
    rw [Node.valid, Bool.and_eq_true, EndTag.valid, Bool.and_eq_true] at valid
    obtain ⟨_, _, _, _, chars⟩ := isName_parts valid.1.1
    have closed : '>' ∉ stop.name ++ stop.gap := by
      rw [mem_append, not_or]
      exact ⟨fun member => absurd (chars _ member) (by decide), space_closed valid.1.2⟩
    have found := marked_element '/' (.inr (.inr rfl)) closed rest
    refine ⟨less, room, strip_never less rest rfl ?_ fun kind => by cases kind <;> rfl⟩
    rw [Node.print, EndTag.text, cons_append, cons_append, ← append_assoc,
      append_assoc]
    exact found
  | tag start =>
    obtain ⟨less, rfl, room⟩ := further rfl
    exact ⟨less, room, strip_tag valid readable wanted less rest⟩
  | element start content stop =>
    obtain ⟨less, rfl, room⟩ := further rfl
    exact ⟨less, room, strip_raw valid readable wanted less rest⟩

theorem strip_nodes {nodes : List Node} (valid : ∀ node ∈ nodes, node.valid = true)
    (readable : ∀ node ∈ nodes, node.Readable decode obj)
    (wanted : ∀ want, want ∈ wants ↔ ∃ entry ∈ obj.kinds, entry.1.conflict = want)
    {fuel : Nat} (enough : (nodes.flatMap Node.print).length ≤ fuel) :
    stripFrom wants fuel (nodes.flatMap Node.print) =
      (nodes.filter fun node => !obj.replaces decode node).flatMap Node.print := by
  induction nodes generalizing fuel with
  | nil =>
    cases fuel with
    | zero => rfl
    | succ fuel => rfl
  | cons node rest ih =>
    rw [forall_mem_cons] at valid readable
    rw [flatMap_cons] at enough ⊢
    obtain ⟨less, room, stripped⟩ := strip_node valid.1 readable.1 wanted _ enough
    rw [stripped, ih valid.2 readable.2 room]
    cases replaced : obj.replaces decode node with
    | true =>
      rw [filter_cons_of_neg (by rw [replaced]; decide)]
      rfl
    | false =>
      rw [filter_cons_of_pos (by rw [replaced]; rfl)]
      rfl

end Stripping

end OnlyJs.Serve.HeadMeta
