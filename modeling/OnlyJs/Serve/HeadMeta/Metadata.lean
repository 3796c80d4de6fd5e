import OnlyJs.Lib.Association
import OnlyJs.Serve.HeadMeta.Agreement

/-!
# The metadata of a page wins

One tag is put into the head for each key that has a text, and no tag of its kind is left beside it.
-/

namespace OnlyJs.Serve.HeadMeta

open List

open Bridge (Value)
open Lib

def Kind.same : Kind → Kind → Bool
  | title, title => true
  | canonical, canonical => true
  | named first, named second => eqIgnoreCase first.toList second.toList
  | _, _ => false

/-- No two keys that have a text differ in letter case only. -/
def Meta.LettersApart (obj : Meta) : Prop :=
  obj.kinds.Pairwise fun first second => first.1.same second.1 = false

def entryNode (entry : Kind × String) : Node :=
  match entry.1 with
  | .title =>
    .element (plainTag "title" []) (escapeHtml entry.2.toList) ⟨"title".toList, []⟩
  | .canonical => .tag (plainTag "link" [plainAttr "rel" "canonical".toList,
      plainAttr "href" (escapeHtml entry.2.toList)])
  | .named key => .tag (plainTag "meta" [plainAttr
      (if isOpenGraph key then "property" else "name") (escapeHtml key.toList),
      plainAttr "content" (escapeHtml entry.2.toList)])

def entryNodes (entry : Kind × String) : List Node := [entryNode entry, .text ['\n']]

section Kinds

theorem filterMap_perm {α β : Type} {first second : α → Option β}
    (disjoint : ∀ item, first item = none ∨ second item = none) (list : List α) :
    (list.filterMap fun item => (first item).or (second item)).Perm
      (list.filterMap first ++ list.filterMap second) := by
  induction list with
  | nil => exact .nil
  | cons item list ih =>
    rw [filterMap_cons, filterMap_cons, filterMap_cons]
    cases one : first item with
    | none =>
      cases other : second item with
      | none => exact ih
      | some found => exact (ih.cons found).trans perm_middle.symm
    | some found =>
      have none_ := (disjoint item).resolve_left (by rw [one]; nofun)
      rw [none_]
      exact ih.cons found

theorem filterMap_lookup {β : Type} {entries : List (String × Value)} {f : Value → Option β}
    (distinct : (entries.map Prod.fst).Nodup) (key : String) :
    (entries.filterMap fun entry => if entry.1 = key then f entry.2 else none) =
      ((entries.lookup key).bind f).toList := by
  induction entries with
  | nil => rfl
  | cons entry rest ih =>
    obtain ⟨name, value⟩ := entry
    rw [map_cons, nodup_cons] at distinct
    rw [filterMap_cons, lookup_cons]
    by_cases same : name = key
    · have others : (rest.filterMap fun entry => if entry.1 = key then f entry.2 else none) =
          [] := by
        rw [filterMap_eq_nil_iff]
        intro other member
        rw [if_neg]
        rintro rfl
        exact distinct.1 (mem_map.mpr ⟨other, member, same.symm⟩)
      rw [if_pos same, others, same, beq_self_eq_true]
      rw [Option.bind_some]
      cases f value with
      | none => rfl
      | some found => rfl
    · rw [if_neg same, beq_eq_false_iff_ne.mpr (Ne.symm same)]
      exact ih distinct.2

theorem social_title : isSocial "title" = false := by decide

theorem social_canonical : isSocial "canonical" = false := by decide

theorem social_description : isSocial "description" = false := by decide

def keyed (key : String) (kind : Kind) (entry : String × Value) : Option (Kind × String) :=
  if entry.1 = key then entry.2.asStr.map (Prod.mk kind) else none

def social (entry : String × Value) : Option (Kind × String) :=
  if isSocial entry.1 then entry.2.asStr.map (Prod.mk (.named entry.1)) else none

def order (obj : Meta) : List (Kind × String) :=
  (obj.text "title").toList.map (Prod.mk .title) ++
    ((obj.text "description").toList.map (Prod.mk (.named "description")) ++
      ((obj.text "canonical").toList.map (Prod.mk .canonical) ++
        ((obj.entries.filter fun entry => isSocial entry.1).insertionSort
          fun left right => left.1 ≤ right.1).filterMap social))

theorem keyed_texts (obj : Meta) (key : String) (kind : Kind) :
    obj.entries.filterMap (keyed key kind) = (obj.text key).toList.map (Prod.mk kind) := by
  have found := filterMap_lookup (f := fun value => value.asStr.map (Prod.mk kind))
    obj.distinct key
  unfold Meta.text
  refine found.trans ?_
  cases obj.entries.lookup key with
  | none => rfl
  | some value =>
    rw [Option.bind_some, Option.bind_some]
    cases value.asStr with
    | none => rfl
    | some text => rfl

theorem kinds_split (obj : Meta) : obj.kinds = obj.entries.filterMap fun entry =>
    (keyed "title" .title entry).or ((keyed "description" (.named "description") entry).or
      ((keyed "canonical" .canonical entry).or (social entry))) := by
  apply filterMap_congr
  intro entry _
  obtain ⟨key, value⟩ := entry
  unfold keyed social kindOf
  dsimp only
  by_cases title : key = "title"
  · subst title
    rw [if_pos rfl, if_pos rfl, social_title]
    cases value.asStr <;> rfl
  · rw [if_neg title, if_neg title]
    by_cases canonical : key = "canonical"
    · subst canonical
      rw [if_pos rfl, if_pos rfl, if_neg (by decide), social_canonical]
      cases value.asStr <;> rfl
    · rw [if_neg canonical, if_neg canonical]
      by_cases description : key = "description"
      · subst description
        rw [social_description]
        cases value.asStr <;> rfl
      · rw [if_neg description, decide_eq_false description]
        cases isSocial key <;> cases value.asStr <;> rfl

theorem order_perm (obj : Meta) : (order obj).Perm obj.kinds := by
  have apart {first second : String} (different : first ≠ second) (one other : Kind)
      (entry : String × Value) :
      keyed first one entry = none ∨ keyed second other entry = none := by
    unfold keyed
    by_cases same : entry.1 = first
    · right
      rw [if_neg]
      intro equal
      exact different (same.symm.trans equal)
    · left
      rw [if_neg same]
  have lone {key : String} (plain : isSocial key = false) (kind : Kind)
      (entry : String × Value) : keyed key kind entry = none ∨ social entry = none := by
    unfold keyed social
    by_cases same : entry.1 = key
    · right
      rw [same, plain]
      rfl
    · left
      rw [if_neg same]
  have either {first second third : Option (Kind × String)} (one : first = none ∨ second = none)
      (other : first = none ∨ third = none) : first = none ∨ second.or third = none := by
    rcases one with left | left
    · exact .inl left
    · rcases other with right | right
      · exact .inl right
      · rw [left, right]
        exact .inr rfl
  have sorted : (((obj.entries.filter fun entry => isSocial entry.1).insertionSort
      fun left right => left.1 ≤ right.1).filterMap social).Perm
        (obj.entries.filterMap social) := by
    refine ((perm_insertionSort _ _).filterMap social).trans ?_
    rw [filterMap_filter]
    apply List.Perm.of_eq
    apply filterMap_congr
    intro entry _
    unfold social
    cases isSocial entry.1 <;> rfl
  rw [kinds_split]
  refine .trans ?_ (filterMap_perm (fun entry => either (apart (by decide) _ _ entry)
    (either (apart (by decide) _ _ entry) (lone social_title _ entry))) obj.entries).symm
  rw [keyed_texts]
  apply List.Perm.append_left
  refine .trans ?_ (filterMap_perm (fun entry => either (apart (by decide) _ _ entry)
    (lone social_description _ entry)) obj.entries).symm
  rw [keyed_texts]
  apply List.Perm.append_left
  refine .trans ?_ (filterMap_perm (fun entry => lone social_canonical _ entry)
    obj.entries).symm
  rw [keyed_texts]
  exact sorted.append_left _

end Kinds

section Added

theorem added_order (obj : Meta) : addedNodes obj = (order obj).flatMap entryNodes := by
  have description : metaNodes "name" "description".toList =
      fun text => entryNodes (.named "description", text) := by
    have plain : isOpenGraph "description" = false := by decide
    have kept : escapeHtml "description".toList = "description".toList := by decide
    unfold entryNodes entryNode metaNodes
    dsimp only
    rw [plain, kept]
    rfl
  have socials (entries : List (String × Value))
      (each : ∀ entry ∈ entries, isSocial entry.1 = true) :
      entries.flatMap socialNodes = (entries.filterMap social).flatMap entryNodes := by
    induction entries with
    | nil => rfl
    | cons entry rest ih =>
      obtain ⟨first, others⟩ := forall_mem_cons.mp each
      rw [flatMap_cons, ih others, filterMap_cons]
      unfold social socialNodes
      rw [first]
      cases entry.2.asStr with
      | none => rfl
      | some text => rfl
  unfold addedNodes order
  rw [socials]
  · rw [flatMap_append, flatMap_append, flatMap_append, flatMap_map,
      flatMap_map, flatMap_map, description, append_assoc, append_assoc]
    rfl
  · intro entry member
    rw [mem_insertionSort, mem_filter] at member
    exact member.2

theorem plain_attr_first (tag name : String) (value : List Char) (rest : List Attr) :
    (plainTag tag (plainAttr name value :: rest)).attr name = some value := by
  have named : (plainAttr name value).isNamed name.toList = true := eqIgnoreCase_iff.mpr rfl
  unfold StartTag.attr plainTag
  rw [find?_cons_of_pos named]
  rfl

theorem plain_attr_second {tag first second : String} {value : List Char} (given : List Char)
    (apart : eqIgnoreCase first.toList second.toList = false) :
    (plainTag tag [plainAttr first value, plainAttr second given]).attr second = some given := by
  have other : ¬ (plainAttr first value).isNamed second.toList = true := by
    unfold Attr.isNamed plainAttr
    rw [apart]
    exact Bool.false_ne_true
  have named : (plainAttr second given).isNamed second.toList = true := eqIgnoreCase_iff.mpr rfl
  unfold StartTag.attr plainTag
  rw [find?_cons_of_neg other, find?_cons_of_pos named]
  rfl

theorem plain_attr_none {tag first second name : String} {value given : List Char}
    (one : eqIgnoreCase first.toList name.toList = false)
    (other : eqIgnoreCase second.toList name.toList = false) :
    (plainTag tag [plainAttr first value, plainAttr second given]).attr name = none := by
  have left : ¬ (plainAttr first value).isNamed name.toList = true := by
    unfold Attr.isNamed plainAttr
    rw [one]
    exact Bool.false_ne_true
  have right : ¬ (plainAttr second given).isNamed name.toList = true := by
    unfold Attr.isNamed plainAttr
    rw [other]
    exact Bool.false_ne_true
  unfold StartTag.attr plainTag
  rw [find?_cons_of_neg left, find?_cons_of_neg right]
  rfl

variable {decode : List Char → List Char} (references : References decode)

include references

theorem entry_has (entry : Kind × String) (kind : Kind) :
    kind.has decode (entryNode entry) = entry.1.same kind := by
  obtain ⟨given, text⟩ := entry
  have named : eqIgnoreCase "meta".toList "meta".toList = true := by decide
  cases given with
  | title =>
    cases kind with
    | title =>
      change eqIgnoreCase "title".toList "title".toList = true
      decide
    | canonical => rfl
    | named key => rfl
  | canonical =>
    cases kind with
    | title => rfl
    | canonical =>
      have plain : decode "canonical".toList = "canonical".toList :=
        references.plain _ (by decide)
      rw [entryNode, Kind.has, plain_attr_first, Option.any_some, plain]
      rfl
    | named key =>
      rfl
  | named first =>
    cases kind with
    | title => rfl
    | canonical =>
      rfl
    | named key =>
      rw [entryNode, Kind.has]
      change (eqIgnoreCase "meta".toList "meta".toList && _) =
        eqIgnoreCase first.toList key.toList
      rw [named, Bool.true_and]
      simp only [any_cons, any_nil, Bool.or_false]
      by_cases openGraph : isOpenGraph first = true
      · rw [openGraph, if_pos rfl, plain_attr_none (by decide) (by decide), plain_attr_first,
          Option.any_none, Bool.false_or, Option.any_some, references.escaped]
      · rw [if_neg openGraph, plain_attr_first,
          plain_attr_none (by decide) (by decide), Option.any_none,
          Bool.or_false, Option.any_some, references.escaped]

theorem entry_shown (entry : Kind × String) :
    entry.1.shown decode (entryNode entry) = some entry.2.toList := by
  obtain ⟨kind, text⟩ := entry
  cases kind with
  | title =>
    rw [entryNode, Kind.shown, references.escaped]
  | canonical =>
    rw [entryNode, Kind.shown, plain_attr_second _ (by decide), Option.map_some,
      references.escaped]
  | named key =>
    rw [entryNode, Kind.shown, plain_attr_second, Option.map_some, references.escaped]
    rcases social_attr key with same | same
    · rw [same]
      decide
    · rw [same]
      decide

theorem added_of_kind (entries : List (Kind × String)) (kind : Kind) :
    (entries.flatMap entryNodes).filter (kind.has decode) =
      (entries.filter fun entry => entry.1.same kind).map entryNode := by
  induction entries with
  | nil => rfl
  | cons entry rest ih =>
    have newline : kind.has decode (.text ['\n']) = false := by
      cases kind <;> rfl
    rw [flatMap_cons, filter_append, ih, entryNodes, filter_cons,
      filter_cons, filter_cons, newline, entry_has references entry kind]
    cases entry.1.same kind with
    | true => rfl
    | false => rfl

end Added

section Once

theorem same_refl (kind : Kind) : kind.same kind = true := by
  cases kind with
  | title => rfl
  | canonical => rfl
  | named key => exact eqIgnoreCase_iff.mpr rfl

theorem same_symm {first second : Kind} (same : first.same second = true) :
    second.same first = true := by
  cases first with
  | title =>
    cases second with
    | title => rfl
    | canonical | named => cases same
  | canonical =>
    cases second with
    | canonical => rfl
    | title | named => cases same
  | named key =>
    cases second with
    | named other => exact eqIgnoreCase_iff.mpr (eqIgnoreCase_iff.mp same).symm
    | title | canonical => cases same

variable {entries : List (Kind × String)}

theorem filter_same {entry : Kind × String}
    (apart : entries.Pairwise fun first second => first.1.same second.1 = false)
    (member : entry ∈ entries) :
    (entries.filter fun other => other.1.same entry.1) = [entry] := by
  induction entries with
  | nil => cases member
  | cons first rest ih =>
    obtain ⟨head, others⟩ := pairwise_cons.mp apart
    rcases mem_cons.mp member with rfl | later
    · have none_ : (rest.filter fun other => other.1.same entry.1) = [] := by
        rw [filter_eq_nil_iff]
        intro other listed same
        have different := head other listed
        rw [same_symm same] at different
        cases different
      rw [filter_cons, same_refl, if_pos rfl, none_]
    · have different := head entry later
      rw [filter_cons_of_neg (by rw [different]; exact Bool.false_ne_true),
        ih others later]

theorem pairwise_of_filter
    (once : ∀ entry ∈ entries, ∃ node, (entries.filter fun other => other.1.same entry.1).map
      entryNode = [node]) :
    entries.Pairwise fun first second => first.1.same second.1 = false := by
  rw [pairwise_iff_forall_sublist]
  intro first second both
  rw [← Bool.not_eq_true]
  intro same
  obtain ⟨node, alone⟩ := once second (both.subset (mem_cons_of_mem _ mem_cons_self))
  have two := (both.filter fun other => other.1.same second.1).length_le
  have kept : ([first, second].filter fun other => other.1.same second.1) = [first, second] := by
    rw [filter_cons, filter_cons, same, same_refl]
    rfl
  have one := congrArg List.length alone
  rw [length_map] at one
  rw [kept, one] at two
  exact absurd two (Nat.not_succ_le_self 1)

theorem apart_order (obj : Meta) : obj.LettersApart ↔
    (order obj).Pairwise fun first second => first.1.same second.1 = false := by
  refine (order_perm obj).symm.pairwise_iff fun {first second} apart => ?_
  rw [← Bool.not_eq_true] at apart ⊢
  exact fun same => apart (same_symm same)

variable {decode : List Char → List Char} (references : References decode)

include references

/-- Each kind has one tag exactly where no two keys say the same. -/
theorem once_iff (page : Document) (obj : Meta) :
    (∀ entry ∈ obj.kinds, ∃ node,
      (page.inject decode obj).nodes.filter (entry.1.has decode) = [node] ∧
        entry.1.shown decode node = some entry.2.toList) ↔ obj.LettersApart := by
  have kept (entry : Kind × String) (listed : entry ∈ obj.kinds) :
      (page.inject decode obj).nodes.filter (entry.1.has decode) =
        ((order obj).filter fun other => other.1.same entry.1).map entryNode := by
    have none_ : (page.nodes.filter fun node => !obj.replaces decode node).filter
        (entry.1.has decode) = [] := by
      rw [filter_eq_nil_iff]
      intro node member has
      have free := (mem_filter.mp member).2
      have replaced : obj.replaces decode node = true :=
        any_eq_true.mpr ⟨entry, listed, has⟩
      rw [replaced] at free
      cases free
    unfold Document.inject
    rw [filter_append, none_, nil_append, added_order, added_of_kind references]
  rw [apart_order]
  constructor
  · intro once
    apply pairwise_of_filter
    intro entry member
    have listed := (order_perm obj).mem_iff.mp member
    obtain ⟨node, alone, _⟩ := once entry listed
    rw [kept entry listed] at alone
    exact ⟨node, alone⟩
  · intro apart entry listed
    have member := (order_perm obj).mem_iff.mpr listed
    refine ⟨entryNode entry, ?_, entry_shown references entry⟩
    rw [kept entry listed, filter_same apart member]
    rfl

end Once

section Code

theorem added_metadata {obj : Meta} {node : Node} (member : node ∈ addedNodes obj) :
    node.isMetadata = true := by
  rw [added_order, mem_flatMap] at member
  obtain ⟨entry, _, inside⟩ := member
  rcases mem_pair.mp inside with rfl | rfl
  · obtain ⟨kind, text⟩ := entry
    cases kind with
    | title =>
      change decide ("title".toList = "title".toList) = true
      exact decide_eq_true rfl
    | canonical =>
      change ["meta".toList, "link".toList].contains "link".toList = true
      decide
    | named key =>
      change ["meta".toList, "link".toList].contains "meta".toList = true
      decide
  · decide

theorem text_of_mem {obj : Meta} {entry : String × Value} (listed : entry ∈ obj.entries) :
    obj.text entry.1 = entry.2.asStr := by
  unfold Meta.text
  rw [Association.lookup_of_mem obj.distinct listed]
  rfl

/-- What is taken out is what is put in. -/
theorem conflicts_kinds (obj : Meta) (want : Conflict) :
    want ∈ conflictKeys obj ↔ ∃ entry ∈ obj.kinds, entry.1.conflict = want := by
  have texts (key : String) (kind : Kind) (conflict : Conflict) (same : kind.conflict = conflict) :
      want ∈ ((obj.text key).map fun _ => conflict).toList ↔
        ∃ entry ∈ (obj.text key).toList.map (Prod.mk kind), entry.1.conflict = want := by
    subst same
    cases obj.text key with
    | none => exact ⟨nofun, nofun⟩
    | some text =>
      constructor
      · intro member
        exact ⟨_, mem_cons_self, (mem_singleton.mp member).symm⟩
      · rintro ⟨entry, member, rfl⟩
        rw [mem_singleton.mp member]
        exact mem_cons_self
  have socials : (want ∈ (obj.entries.filter fun entry => isSocial entry.1 &&
      (obj.text entry.1).isSome).map fun entry => Conflict.metaTag entry.1) ↔
        ∃ entry ∈ ((obj.entries.filter fun entry => isSocial entry.1).insertionSort
          fun left right => left.1 ≤ right.1).filterMap social, entry.1.conflict = want := by
    simp only [mem_map, mem_filterMap, mem_insertionSort, mem_filter,
      Bool.and_eq_true]
    constructor
    · rintro ⟨entry, ⟨listed, named, given⟩, rfl⟩
      rw [text_of_mem listed] at given
      obtain ⟨text, found⟩ := Option.isSome_iff_exists.mp given
      refine ⟨(.named entry.1, text), ⟨entry, ⟨listed, named⟩, ?_⟩, rfl⟩
      rw [social, if_pos named, found]
      rfl
    · rintro ⟨_, ⟨entry, ⟨listed, named⟩, found⟩, rfl⟩
      rw [social, if_pos named, Option.map_eq_some_iff] at found
      obtain ⟨text, given, rfl⟩ := found
      refine ⟨entry, ⟨listed, named, ?_⟩, rfl⟩
      rw [text_of_mem listed, given]
      rfl
  have through : (∃ entry ∈ obj.kinds, entry.1.conflict = want) ↔
      ∃ entry ∈ order obj, entry.1.conflict = want := by
    constructor
    · rintro ⟨entry, listed, same⟩
      exact ⟨entry, (order_perm obj).mem_iff.mpr listed, same⟩
    · rintro ⟨entry, listed, same⟩
      exact ⟨entry, (order_perm obj).mem_iff.mp listed, same⟩
  rw [through]
  unfold conflictKeys order
  rw [mem_append, mem_append, mem_append, socials, texts "title" .title .title rfl,
    texts "description" (.named "description") (.metaTag "description") rfl,
    texts "canonical" .canonical .canonicalLink rfl]
  simp only [mem_append, or_and_right, exists_or, or_assoc]

theorem kinds_empty {obj : Meta} : obj.kinds = [] ↔ renderMetaTags obj = [] := by
  rw [← added_print, added_order]
  constructor
  · intro none_
    have empty := order_perm obj
    rw [none_] at empty
    rw [empty.eq_nil]
    rfl
  · intro blank
    have empty : order obj = [] := by
      cases entries : order obj with
      | nil => rfl
      | cons entry rest =>
        rw [entries, flatMap_cons, flatMap_append] at blank
        have first := (append_eq_nil_iff.mp blank).1
        have second := (append_eq_nil_iff.mp (append_eq_nil_iff.mp first).2).1
        cases second
    have perm := order_perm obj
    rw [empty] at perm
    exact perm.symm.eq_nil

end Code

/-- The scanner takes the page for what it is: the first `<head` and the first `</head>` of the
page are those of its head, and each node of the head is read as it stands. -/
structure Document.Readable (decode : List Char → List Char) (obj : Meta) (page : Document) :
    Prop where
  opens : Text.Clear sameLetter "<head".toList page.prolog page.opening.text
  plain : '<' ∉ left page.opening.inner
  closes : Text.Clear sameLetter "</head>".toList
    (page.prolog ++ (page.opening.text ++ page.nodes.flatMap Node.print)) page.closing.text
  tight : page.closing.gap = []
  nodes : ∀ node ∈ page.nodes, node.Readable decode obj

section Page

variable {decode : List Char → List Char} {page : Document} {obj : Meta}

theorem head_starts {name : List Char} (behind : List Char)
    (named : eqIgnoreCase name "head".toList = true) :
    Text.starts sameLetter "head".toList (name ++ behind) = true := by
  obtain ⟨long, here⟩ := starts_whole.mp named
  rw [Text.starts_append _ (Nat.le_of_eq long.symm)]
  exact here

theorem opening_found (readable : page.Readable decode obj) :
    findCi page.print "<head" = some page.prolog.length := by
  have named := page.opens
  rw [Bool.and_eq_true] at named
  have here : Text.starts sameLetter "<head".toList page.opening.text = true := by
    have needle : "<head".toList = '<' :: "head".toList := by decide
    rw [needle, StartTag.text, Text.starts, head_starts _ named.2]
    decide
  have long : "<head".toList.length ≤ page.opening.text.length := by
    have size := (starts_whole.mp named.2).1
    have four : "head".toList.length = 4 := by decide
    have five : "<head".toList.length = 5 := by decide
    rw [start_length]
    omega
  apply Text.find_clear (by decide)
  · exact Text.clear_behind _ long readable.opens
  · rw [Text.starts_append _ long]
    exact here

theorem closing_found (readable : page.Readable decode obj) :
    findCi page.print "</head>" =
      some (page.prolog ++ (page.opening.text ++ page.nodes.flatMap Node.print)).length := by
  have named := page.closes
  rw [Bool.and_eq_true] at named
  have needle : "</head>".toList = '<' :: '/' :: ("head".toList ++ ['>']) := by decide
  obtain ⟨size, inside⟩ := starts_whole.mp named.2
  have text : page.closing.text = '<' :: '/' :: (page.closing.name ++ ['>']) := by
    rw [EndTag.text, readable.tight, nil_append]
  have here : Text.starts sameLetter "</head>".toList page.closing.text = true := by
    rw [needle, text, Text.starts, Text.starts, Text.starts_both size.symm, inside]
    decide
  have long : "</head>".toList.length ≤ page.closing.text.length := by
    rw [needle, text]
    simp only [length_cons, length_append]
    omega
  have whole : page.print = (page.prolog ++ (page.opening.text ++
      page.nodes.flatMap Node.print)) ++ (page.closing.text ++ page.epilog) := by
    unfold Document.print
    simp only [append_assoc]
  rw [whole]
  apply Text.find_clear (by decide)
  · exact Text.clear_behind _ long readable.closes
  · rw [Text.starts_append _ long]
    exact here

theorem inject_none (none_ : obj.kinds = []) : (page.inject decode obj).print = page.print := by
  have kept : (page.nodes.filter fun node => !obj.replaces decode node) = page.nodes := by
    rw [filter_eq_self]
    intro node _
    unfold Meta.replaces
    rw [none_]
    rfl
  have added : (addedNodes obj).flatMap Node.print = [] := by
    rw [added_print]
    exact kinds_empty.mp none_
  unfold Document.print Document.inject
  dsimp only
  rw [kept, flatMap_append, added, append_nil]

/-- A page that the scanner takes for what it is gets the metadata. -/
theorem inject_readable (readable : page.Readable decode obj) (some_ : obj.kinds ≠ []) :
    injectHead page.print obj = (page.inject decode obj).print := by
  have tagged : (renderMetaTags obj).isEmpty = false := by
    rw [isEmpty_eq_false_iff]
    exact fun blank => some_ (kinds_empty.mpr blank)
  have wanted : (conflictKeys obj).isEmpty = false := by
    obtain ⟨entry, listed⟩ := exists_mem_of_ne_nil _ some_
    rw [isEmpty_eq_false_iff]
    exact ne_nil_of_mem ((conflicts_kinds obj _).mpr ⟨entry, listed, rfl⟩)
  have front : page.opening.text = ('<' :: (page.opening.name ++
      (cut page.opening.inner ++ ['>']))) ++ left page.opening.inner := by
    have printed := start_text page.opening []
    rw [append_nil, append_nil] at printed
    rw [printed]
    simp only [cons_append, append_assoc, nil_append]
  have whole : page.print = (page.prolog ++ '<' :: (page.opening.name ++
      (cut page.opening.inner ++ ['>']))) ++ ((left page.opening.inner ++
        page.nodes.flatMap Node.print) ++ (page.closing.text ++ page.epilog)) := by
    unfold Document.print
    rw [front]
    simp only [append_assoc]
  have ended : findCi page.print "</head>" = some ((page.prolog ++ '<' :: (page.opening.name ++
      (cut page.opening.inner ++ ['>']))).length +
        (left page.opening.inner ++ page.nodes.flatMap Node.print).length) := by
    rw [closing_found readable, front]
    simp only [length_append]
    congr 1
    omega
  have started : headStart page.print = some (page.prolog ++ '<' :: (page.opening.name ++
      (cut page.opening.inner ++ ['>']))).length := by
    have named := page.opens
    rw [Bool.and_eq_true] at named
    obtain ⟨_, _, _, _, chars⟩ := isName_parts (tag_parts named.1).named
    have closed : '>' ∉ '<' :: (page.opening.name ++ cut page.opening.inner) := by
      rw [mem_cons, mem_append, not_or, not_or]
      exact ⟨by decide, fun member => absurd (chars _ member) (by decide), cut_free _⟩
    have behind : page.print.drop page.prolog.length =
        ('<' :: (page.opening.name ++ cut page.opening.inner)) ++ '>' ::
          ((left page.opening.inner ++ page.nodes.flatMap Node.print) ++
            (page.closing.text ++ page.epilog)) := by
      rw [whole, append_assoc, drop_left]
      simp only [cons_append, append_assoc, nil_append]
    unfold headStart
    rw [opening_found readable]
    dsimp only
    rw [behind, find_text_mark (by decide) _ closed]
    simp only [Option.map_some, length_append, length_cons, length_nil]
    exact congrArg some (by omega)
  have stripped : stripConflicts (left page.opening.inner ++ page.nodes.flatMap Node.print)
      (conflictKeys obj) = left page.opening.inner ++
        (page.nodes.filter fun node => !obj.replaces decode node).flatMap Node.print := by
    unfold stripConflicts
    rw [wanted, if_neg Bool.false_ne_true, strip_text _ _ readable.plain,
      strip_nodes (all_eq_true.mp page.valid) readable.nodes (conflicts_kinds obj)]
    rw [length_append]
    omega
  unfold injectHead
  dsimp only
  rw [tagged, if_neg Bool.false_ne_true, ended, started]
  dsimp only
  rw [if_neg (by omega), whole, take_left, take_length_add_append, take_left,
    drop_left, stripped, drop_length_add_append, drop_left, ← added_print]
  unfold Document.print Document.inject
  rw [front, flatMap_append]
  simp only [append_assoc]

/-- The metadata wins in a page that the scanner takes for what it is, as long as no two keys
differ in letter case only. Without a key that has a text every page stays as it is. -/
theorem metadata_wins_iff (references : References decode)
    (readable : obj.kinds ≠ [] → page.Readable decode obj) :
    Injected decode page obj (injectHead page.print obj) ↔ obj.LettersApart := by
  constructor
  · intro injected
    exact (once_iff references page obj).mp injected.once
  · intro apart
    have unchanged (none_ : obj.kinds = []) : injectHead page.print obj = page.print := by
      unfold injectHead
      rw [kinds_empty.mp none_]
      rfl
    refine ⟨?_, (once_iff references page obj).mpr apart, fun node => added_metadata, unchanged⟩
    by_cases none_ : obj.kinds = []
    · rw [unchanged none_, inject_none none_]
    · exact inject_readable (readable none_) none_

end Page

def decodeReferences : List Char → List Char
  | '&' :: 'a' :: 'm' :: 'p' :: ';' :: rest => '&' :: decodeReferences rest
  | '&' :: 'l' :: 't' :: ';' :: rest => '<' :: decodeReferences rest
  | '&' :: 'g' :: 't' :: ';' :: rest => '>' :: decodeReferences rest
  | '&' :: 'q' :: 'u' :: 'o' :: 't' :: ';' :: rest => '"' :: decodeReferences rest
  | '&' :: '#' :: '3' :: '9' :: ';' :: rest => '\'' :: decodeReferences rest
  | char :: rest => char :: decodeReferences rest
  | [] => []

theorem decode_char {char : Char} (rest : List Char) (plain : char ≠ '&') :
    decodeReferences (char :: rest) = char :: decodeReferences rest := by
  rw [decodeReferences]
  all_goals
    intros
    exact plain (by assumption)

theorem decode_escaped (char : Char) (rest : List Char) :
    decodeReferences (escapeChar char ++ rest) = char :: decodeReferences rest := by
  unfold escapeChar
  split_ifs with amp less greater quote apostrophe
  · rw [amp]
    rfl
  · rw [less]
    rfl
  · rw [greater]
    rfl
  · rw [quote]
    rfl
  · rw [apostrophe]
    rfl
  · exact decode_char rest amp

theorem decode_references : References decodeReferences := by
  constructor
  · intro text plain
    induction text with
    | nil => rfl
    | cons char rest ih =>
      rw [mem_cons, not_or] at plain
      rw [decode_char rest (Ne.symm plain.1), ih plain.2]
  · intro text
    rw [escape_chars]
    induction text with
    | nil => rfl
    | cons char rest ih =>
      rw [flatMap_cons, decode_escaped, ih]

def described : Meta where
  entries := [("description", .string "new")]
  distinct := by decide

def describedPage : Document where
  prolog := []
  opening := plainTag "head" []
  nodes := [.tag (plainTag "meta" [plainAttr "content" "old".toList,
    plainAttr "name" "description".toList])]
  closing := ⟨"head".toList, []⟩
  epilog := []
  opens := by decide
  closes := by decide
  valid := by decide

/-- The description of the page has a `>` in it. -/
def comparingPage : Document where
  prolog := []
  opening := plainTag "head" []
  nodes := [.tag (plainTag "meta" [plainAttr "content" "a>b".toList,
    plainAttr "name" "description".toList])]
  closing := ⟨"head".toList, []⟩
  epilog := []
  opens := by decide
  closes := by decide
  valid := by decide

theorem described_readable : describedPage.Readable decodeReferences described where
  opens := by decide
  plain := by decide
  closes := by decide +kernel
  tight := rfl
  nodes := by
    intro node member
    cases mem_singleton.mp member
    refine ⟨by decide +kernel, ?_, fun inside => absurd inside (by decide)⟩
    decide +kernel

theorem described_apart : described.LettersApart := by
  unfold Meta.LettersApart
  decide

theorem metadata_wins_described :
    Injected decodeReferences describedPage described
      (injectHead describedPage.print described) :=
  (metadata_wins_iff decode_references fun _ => described_readable).mpr described_apart

/-- The old description is left in front of the new one. -/
theorem metadata_loses : ¬ Injected decodeReferences comparingPage described
    (injectHead comparingPage.print described) := by
  intro injected
  have printed := injected.printed
  have other : injectHead comparingPage.print described ≠
      (comparingPage.inject decodeReferences described).print := by
    decide +kernel
  exact other printed

end OnlyJs.Serve.HeadMeta
