import Mathlib.Algebra.Order.BigOperators.Group.List
import Mathlib.Algebra.Order.Group.Nat
import OnlyJs.Bridge.Guard.Picks
import OnlyJs.Bridge.Guard.Tagged

/-!
# Texts in another case

A recasing changes the case of letters outside of literals, quoted identifiers and comments.
The words of a text are kept as positions here, so that a text and its recasings have the same
words and the same tables among them. A table that is mentioned without quotes and has a letter
is named in lower case by one recasing and in upper case by another, whatever becomes of the
others.
-/

namespace OnlyJs.Bridge.Guard

open Lib.LetterCase List

section Texts

structure Recased (sql other : List Char) : Prop where
  letters : SameLetters sql other
  enclosed : ∀ i : Nat, (outside sql)[i]? = some false → other[i]? = sql[i]?

def charAt (sql : List Char) (i : Nat) : Char := sql.getD i ' '

def isOutside (sql : List Char) (i : Nat) : Bool := (outside sql).getD i false

def wordsOf (sql : List Char) : List (Bool × List Nat) :=
  scanTagged .plain .start (sql.map Char.toLower).zipIdx

def textOf (sql : List Char) (word : Bool × List Nat) : Word := word.2.map (charAt sql)

def recase (sql : List Char) (keep : Nat → Bool) : List Char :=
  sql.mapIdx fun i c =>
    if isOutside sql i then if keep i then c.toLower else c.toUpper else c

variable {sql other : List Char}

theorem tokens_words (sql : List Char) : tokens sql = (wordsOf sql).map (textOf sql) := by
  have lowered : Lowered (charAt sql) (sql.map Char.toLower).zipIdx := by
    rintro ⟨c, i⟩ member
    obtain ⟨bound, read⟩ := mem_zipIdx' member
    have inside : i < sql.length := by simpa using bound
    simp [read, charAt, inside]
  have positions : ((sql.map Char.toLower).zipIdx.map fun pair => charAt sql pair.2) = sql := by
    apply ext_getElem
    · simp
    · intro i inside bound
      simp [charAt, bound]
  have scanned := scan_tagged (charAt sql) .plain .start _ lowered trivial
  rw [positions] at scanned
  exact scanned

theorem outside_sql_length (sql : List Char) : (outside sql).length = sql.length := by
  rw [outside, outside_length, length_map]

theorem words_parted (sql : List Char) : Parted (isOutside sql) (wordsOf sql) := by
  apply scan_parted
  · apply ext_getElem
    · simp [outside_length]
    · intro i inside bound
      simp only [TagMode.region]
      have bound : i < (outside sql).length := by
        rw [outside_sql_length]
        simpa using inside
      have flag : isOutside sql i = (outside sql)[i] := by simp [isOutside, bound]
      simpa [outside] using flag
  · exact ⟨nofun, nofun⟩
  · trivial

section

variable (same : SameLetters sql other)
include same

theorem same_letter_at (i : Nat) :
    SameLetter (charAt sql i) (charAt other i) := by
  induction same generalizing i with
  | nil => rfl
  | cons letter _ ih =>
    cases i with
    | zero => exact letter
    | succ i => exact ih i

theorem words_same : wordsOf other = wordsOf sql := by
  rw [wordsOf, wordsOf, same.lower]

theorem text_same (word : Bool × List Nat) :
    SameLetters (textOf sql word) (textOf other word) :=
  SameLetters.map word.2 fun i _ => same_letter_at same i

end

theorem Recased.at (recased : Recased sql other) {i : Nat} (enclosed : isOutside sql i = false) :
    charAt other i = charAt sql i := by
  have equal : other[i]? = sql[i]? := by
    by_cases bound : i < (outside sql).length
    · apply recased.enclosed i
      simpa [isOutside, bound] using enclosed
    · have size := outside_sql_length sql
      have length := recased.letters.length_eq
      rw [getElem?_eq_none (by omega), getElem?_eq_none (by omega)]
  rw [charAt, charAt, getD_eq_getElem?_getD, getD_eq_getElem?_getD, equal]

theorem Recased.quoted (recased : Recased sql other) {word : Bool × List Nat}
    (member : word ∈ wordsOf sql) (quoted : word.1 = true) :
    textOf other word = textOf sql word := by
  apply map_congr_left
  intro i inside
  apply recased.at
  rw [words_parted sql word member i inside, quoted]
  rfl

theorem recase_recased (sql : List Char) (keep : Nat → Bool) :
    Recased sql (recase sql keep) := by
  constructor
  · apply List.forall₂_iff_get.mpr
    refine ⟨by simp [recase], ?_⟩
    intro i inside _
    simp only [recase, get_eq_getElem, getElem_mapIdx]
    split
    · split
      · exact (same_letter_lower _).symm
      · exact (same_letter_upper _).symm
    · exact SameLetter.refl _
  · intro i enclosed
    have flag : isOutside sql i = false := by simp [isOutside, enclosed]
    simp [recase, flag]

theorem recase_at (keep : Nat → Bool) {i : Nat} (out : isOutside sql i = true) :
    charAt (recase sql keep) i =
      if keep i then (charAt sql i).toLower else (charAt sql i).toUpper := by
  have bound : i < sql.length := by
    rw [← outside_sql_length]
    by_contra beyond
    rw [isOutside, getD_eq_getElem?_getD, getElem?_eq_none (by omega)] at out
    exact Bool.noConfusion out
  simp [charAt, recase, bound, out]

end Texts

section Mentions

structure Mention where
  loose : Bool
  table : String
deriving DecidableEq

abbrev Pick := Bool × Bool × List Nat

def picked (sql : List Char) : List Pick :=
  picks (lookOf ∘ textOf sql) (tokens sql).length (wordsOf sql)

def named (sql : List Char) (pick : Pick) : Word := nameOf pick.1 (textOf sql pick.2)

def isLoose (sql : List Char) (pick : Pick) : Bool :=
  !pick.2.1 && (named sql pick).any Char.isAlpha

def mentionOf (sql : List Char) (pick : Pick) : Mention where
  loose := isLoose sql pick
  table := String.ofList
    (if isLoose sql pick then (named sql pick).map Char.toLower else named sql pick)

/-- The tables that `extract_tables` finds, in the order of the text. -/
def mentions (sql : List Char) : List Mention := (picked sql).map (mentionOf sql)

def LowerCase (word : Word) : Prop := ∀ c ∈ word, c.toLower = c

variable {sql other : List Char}

theorem extract_picked (name : String) (sql : List Char) :
    name ∈ extractTables sql ↔ ∃ pick ∈ picked sql, String.ofList (named sql pick) = name := by
  have found := extract_picks (textOf sql) (tokens sql).length [] (wordsOf sql)
  rw [← tokens_words] at found
  rw [extractTables, found, mem_push_tables]
  simp only [not_mem_nil, false_or, mem_map, exists_exists_and_eq_and]
  rfl

theorem picked_same (same : SameLetters sql other) : picked other = picked sql := by
  have looks : lookOf ∘ textOf other = lookOf ∘ textOf sql := by
    funext word
    exact (look_same (text_same same word)).symm
  have size : (tokens other).length = (tokens sql).length := by
    rw [tokens_words, tokens_words, length_map, length_map, words_same same]
  rw [picked, looks, size, words_same same, picked]

theorem named_same (same : SameLetters sql other) (pick : Pick) :
    SameLetters (named sql pick) (named other pick) := by
  have text := text_same same pick.2
  unfold named nameOf
  split
  · exact unqualified_same (trim_marks_same text)
  · exact unqualified_same text

theorem mem_unqualified {word : Word} {c : Char} (member : c ∈ unqualified word) : c ∈ word := by
  have inside := mem_reverse.mp member
  exact mem_reverse.mp ((takeWhile_sublist _).mem inside)

theorem mem_trim_marks {word : Word} {c : Char} (member : c ∈ trimMarks word) : c ∈ word := by
  have inside := (dropWhile_sublist _).mem (mem_reverse.mp member)
  exact (dropWhile_sublist _).mem (mem_reverse.mp inside)

theorem named_char {pick : Pick} {c : Char} (member : c ∈ named sql pick) :
    ∃ i ∈ pick.2.2, charAt sql i = c := by
  have inside : c ∈ textOf sql pick.2 := by
    unfold named nameOf at member
    split at member
    · exact mem_trim_marks (mem_unqualified member)
    · exact mem_unqualified member
  exact mem_map.mp inside

theorem named_fixed (recased : Recased sql other) {pick : Pick} (member : pick ∈ picked sql)
    (fixed : isLoose sql pick = false) : named other pick = named sql pick := by
  rw [isLoose, Bool.and_eq_false_iff] at fixed
  rcases fixed with quoted | plain
  · have word := picks_word _ _ _ member
    unfold named
    rw [recased.quoted word (by simpa using quoted)]
  · exact ((named_same recased.letters pick).eq plain).symm

/-- What tables of lower case a recasing has: the fixed ones, and the loose ones that it names
in lower case. -/
theorem recased_tables (holds : String → Prop)
    (lower : ∀ table, holds table → LowerCase table.toList) (recased : Recased sql other) :
    (∃ table ∈ extractTables other, holds table) ↔
      ∃ pick ∈ picked sql, holds (mentionOf sql pick).table ∧
        (isLoose sql pick = true → LowerCase (named other pick)) := by
  have same := picked_same recased.letters
  have table : ∀ pick ∈ picked sql, LowerCase (named other pick) ∨ isLoose sql pick = false →
      String.ofList (named other pick) = (mentionOf sql pick).table := by
    intro pick member low
    apply congrArg String.ofList
    split
    · rename_i loose
      rcases low with low | fixed
      · exact (named_same recased.letters pick).symm.eq_lower low
      · rw [fixed] at loose
        exact Bool.noConfusion loose
    · rename_i fixed
      exact named_fixed recased member (Bool.eq_false_iff.mpr fixed)
  constructor
  · rintro ⟨name, member, held⟩
    obtain ⟨pick, chosen, rfl⟩ := (extract_picked name other).mp member
    rw [same] at chosen
    have low := lower _ held
    rw [String.toList_ofList] at low
    refine ⟨pick, chosen, ?_, fun _ => low⟩
    rw [← table pick chosen (.inl low)]
    exact held
  · rintro ⟨pick, chosen, held, low⟩
    have equal : String.ofList (named other pick) = (mentionOf sql pick).table := by
      apply table pick chosen
      cases loose : isLoose sql pick with
      | false => exact .inr rfl
      | true => exact .inl (low loose)
    refine ⟨String.ofList (named other pick), ?_, ?_⟩
    · apply (extract_picked _ other).mpr
      rw [same]
      exact ⟨pick, chosen, rfl⟩
    · rw [equal]
      exact held

end Mentions

section Apart

variable {sql : List Char}

section

variable (keep : Nat → Bool) {pick : Pick} (member : pick ∈ picked sql)
  (loose : isLoose sql pick = true)
include keep member loose

theorem kept_of_lower (low : LowerCase (named (recase sql keep) pick)) :
    ∃ i ∈ pick.2.2, keep i = true := by
  obtain ⟨unquoted, alpha⟩ := Bool.and_eq_true_iff.mp loose
  rw [(named_same (recase_recased sql keep).letters pick).any_alpha] at alpha
  obtain ⟨c, inside, letter⟩ := any_eq_true.mp alpha
  obtain ⟨i, position, rfl⟩ := named_char inside
  refine ⟨i, position, ?_⟩
  have out : isOutside sql i = true := by
    rw [words_parted sql pick.2 (picks_word _ _ _ member) i position]
    exact unquoted
  by_contra lost
  have raised : charAt (recase sql keep) i = (charAt sql i).toUpper := by
    rw [recase_at keep out, if_neg lost]
  have plain := not_alpha_of_both (low _ inside) (by rw [raised, upper_upper])
  rw [plain] at letter
  exact Bool.noConfusion letter

theorem lower_of_kept (kept : ∀ i ∈ pick.2.2, keep i = true) :
    LowerCase (named (recase sql keep) pick) := by
  intro c inside
  obtain ⟨i, position, rfl⟩ := named_char inside
  have out : isOutside sql i = true := by
    rw [words_parted sql pick.2 (picks_word _ _ _ member) i position]
    exact (Bool.and_eq_true_iff.mp loose).1
  rw [recase_at keep out, if_pos (kept i position), lower_lower]

end

theorem two_weights {ω : Type} (weight : ω → Nat) {words : List ω} {one other : ω}
    (first : one ∈ words) (second : other ∈ words) (apart : one ≠ other) :
    weight one + weight other ≤ (words.map weight).sum := by
  induction words with
  | nil => exact absurd first not_mem_nil
  | cons word rest ih =>
    have single : ∀ w ∈ rest, weight w ≤ (rest.map weight).sum := fun _ member =>
      le_sum_of_mem (mem_map_of_mem member)
    cases first with
    | head =>
      cases second with
      | head => exact absurd rfl apart
      | tail _ second => exact Nat.add_le_add_left (single other second) _
    | tail _ first =>
      cases second with
      | head =>
        rw [Nat.add_comm]
        exact Nat.add_le_add_left (single one first) _
      | tail _ second => exact (ih first second).trans (Nat.le_add_left _ _)

theorem picked_apart {one other : Pick} (first : one ∈ picked sql) (second : other ∈ picked sql)
    {i : Nat} (inOne : i ∈ one.2.2) (inOther : i ∈ other.2.2) : one = other := by
  by_contra apart
  have both := two_weights (fun pick : Pick => pick.2.2.count i) first second apart
  have words := picks_weight (lookOf ∘ textOf sql) (fun word => word.2.count i)
    (tokens sql).length (wordsOf sql)
  have tail := tail_weight (fun word : Bool × List Nat => word.2.count i) (wordsOf sql)
  have used := scan_uses i .plain .start (sql.map Char.toLower).zipIdx
  have once : ((sql.map Char.toLower).zipIdx.map Prod.snd).count i ≤ 1 := by
    rw [zipIdx_map_snd]
    exact nodup_iff_count_le_one.mp nodup_range' i
  have start : uses i (Tagged.start : Tagged Nat).out = 0 := rfl
  have empty : (Tagged.start : Tagged Nat).word.count i = 0 := rfl
  have unread : (TagMode.plain : TagMode Nat).read.count i = 0 := rfl
  have one_pos := count_pos_iff.mpr inOne
  have other_pos := count_pos_iff.mpr inOther
  have total : ((picked sql).map fun pick => pick.2.2.count i).sum ≤ 1 :=
    calc ((picked sql).map fun pick => pick.2.2.count i).sum
      _ ≤ ((wordsOf sql).tail.map fun word => word.2.count i).sum := words
      _ ≤ uses i (wordsOf sql) := tail
      _ ≤ 1 := by
          unfold wordsOf
          omega
  omega

section Chosen

variable (holds : String → Prop) (lower : ∀ table, holds table → LowerCase table.toList)

include lower

theorem upper_tables :
    (∃ table ∈ extractTables (recase sql fun _ => false), holds table) ↔
      ∃ mention ∈ mentions sql, mention.loose = false ∧ holds mention.table := by
  rw [recased_tables holds lower (recase_recased sql _)]
  constructor
  · rintro ⟨pick, member, held, low⟩
    refine ⟨mentionOf sql pick, mem_map_of_mem member, ?_, held⟩
    apply Bool.eq_false_iff.mpr
    intro loose
    obtain ⟨i, _, kept⟩ := kept_of_lower _ member loose (low loose)
    exact Bool.noConfusion kept
  · rintro ⟨mention, member, fixed, held⟩
    obtain ⟨pick, chosen, rfl⟩ := mem_map.mp member
    refine ⟨pick, chosen, held, ?_⟩
    intro loose
    rw [show isLoose sql pick = false from fixed] at loose
    exact Bool.noConfusion loose

theorem chosen_tables {pick : Pick} (member : pick ∈ picked sql)
    (loose : isLoose sql pick = true) :
    (∃ table ∈ extractTables (recase sql fun i => decide (i ∈ pick.2.2)), holds table) ↔
      (∃ mention ∈ mentions sql, mention.loose = false ∧ holds mention.table) ∨
        holds (mentionOf sql pick).table := by
  rw [recased_tables holds lower (recase_recased sql _)]
  constructor
  · rintro ⟨other, chosen, held, low⟩
    cases case : isLoose sql other with
    | false => exact .inl ⟨_, mem_map_of_mem chosen, case, held⟩
    | true =>
      obtain ⟨i, position, kept⟩ := kept_of_lower _ chosen case (low case)
      rw [picked_apart chosen member position (of_decide_eq_true kept)] at held
      exact .inr held
  · rintro (⟨mention, found, fixed, held⟩ | held)
    · obtain ⟨other, chosen, rfl⟩ := mem_map.mp found
      refine ⟨other, chosen, held, ?_⟩
      intro case
      rw [show isLoose sql other = false from fixed] at case
      exact Bool.noConfusion case
    · refine ⟨pick, member, held, fun _ => ?_⟩
      exact lower_of_kept _ member loose fun i position => decide_eq_true position

end Chosen

end Apart

end OnlyJs.Bridge.Guard
