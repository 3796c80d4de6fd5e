import OnlyJs.Bridge.Guard.Tables
import OnlyJs.Lib.LetterCase

/-!
# The words that are tables

`extract_tables` asks five questions of a word, none of which depends on the case of its
letters. The words that it takes for tables are found here from the answers, whatever the words
are, and `extract_tables` is this on texts.
-/

namespace OnlyJs.Bridge.Guard

open Lib.LetterCase List

universe u

section Looks

structure Look where
  keyword : String
  stops : Bool
  comma : Bool
  leadsAlias : Bool
  isAlias : Bool

def lookOf (word : Word) : Look where
  keyword := upper word
  stops := decide (word.head? = some '(' ∨ upper word = "SELECT" ∨ trimMarks word = [])
  comma := endsWithComma word
  leadsAlias := decide (upper (trimMarks word) = "AS")
  isAlias := decide (word.head? ≠ some '(' ∧ isBoundaryKw (trimMarks word) = false)

variable {first second : Word}

theorem upper_same (same : SameLetters first second) :
    upper first = upper second :=
  congrArg String.ofList same.upper

theorem mark_blind (mark : Char) (plain : mark.isAlpha = false) (c d : Char)
    (same : SameLetter c d) : decide (c = mark) = decide (d = mark) := by
  rw [decide_eq_decide]
  constructor
  · rintro rfl
    exact (same.eq plain).symm
  · rintro rfl
    exact same.symm.eq plain |>.symm

theorem is_mark_blind (c d : Char) (same : SameLetter c d) : isMark c = isMark d := by
  unfold isMark
  rw [mark_blind ',' rfl c d same, mark_blind '(' rfl c d same, mark_blind ')' rfl c d same,
    mark_blind ';' rfl c d same]

section

variable (same : SameLetters first second)
include same

theorem trim_marks_same :
    SameLetters (trimMarks first) (trimMarks second) :=
  ((same.dropWhile isMark is_mark_blind).reverse.dropWhile isMark is_mark_blind).reverse

theorem unqualified_same :
    SameLetters (unqualified first) (unqualified second) := by
  apply SameLetters.reverse
  apply same.reverse.takeWhile
  intro c d letter
  have dot := mark_blind '.' rfl c d letter
  rw [decide_eq_decide] at dot
  rw [decide_eq_decide]
  exact not_congr dot

theorem head_same (mark : Char) (plain : mark.isAlpha = false) :
    first.head? = some mark ↔ second.head? = some mark := by
  cases same with
  | nil => rfl
  | @cons c d _ _ letter _ =>
    have blind := mark_blind mark plain c d letter
    simpa using blind

theorem nil_same :
    first = [] ↔ second = [] := by
  cases same with
  | nil => rfl
  | cons => simp

theorem look_same :
    lookOf first = lookOf second := by
  have bracket := head_same same '(' rfl
  have trimmed := trim_marks_same same
  have comma : endsWithComma first = endsWithComma second := by
    unfold endsWithComma
    rw [← head?_reverse, ← head?_reverse, decide_eq_decide]
    exact head_same same.reverse ',' rfl
  unfold lookOf isBoundaryKw
  simp only [upper_same same, upper_same trimmed, nil_same trimmed, bracket, comma, ne_eq]

end

end Looks

section Picks

variable {ω : Type u} (look : ω → Look)

def fromPicks : List ω → List ω × List ω
  | [] => ([], [])
  | word :: rest =>
    if (look word).stops then ([], word :: rest)
    else if (look word).comma then (word :: (fromPicks rest).1, (fromPicks rest).2)
    else
      match rest with
      | [] => ([word], [])
      | alias_ :: more =>
        if (look alias_).leadsAlias then
          match more with
          | _ :: next :: left =>
            if (look next).comma then (word :: (fromPicks left).1, (fromPicks left).2)
            else ([word], next :: left)
          | _ => ([word], [])
        else if (look alias_).comma then (word :: (fromPicks more).1, (fromPicks more).2)
        else if (look alias_).isAlias then
          match more with
          | next :: left =>
            if (look next).comma then (word :: (fromPicks left).1, (fromPicks left).2)
            else ([word], next :: left)
          | [] => ([word], [])
        else ([word], alias_ :: more)

@[grind =]
def picks : Nat → List ω → List (Bool × ω)
  | 0, _ => []
  | _ + 1, [] => []
  | fuel + 1, word :: rest =>
    if (look word).keyword = "FROM" ∨ (look word).keyword = "UPDATE" then
      (fromPicks look rest).1.map (true, ·) ++ picks fuel (fromPicks look rest).2
    else if (look word).keyword = "JOIN" ∨ (look word).keyword = "INTO" then
      rest.head?.toList.map (false, ·) ++ picks fuel rest
    else if (look word).keyword = "TRUNCATE" ∨ (look word).keyword = "ALTER" ∨
        (look word).keyword = "DROP" then
      let named :=
        if rest.head?.map (fun word => (look word).keyword) = some "TABLE" then rest.tail
        else rest
      named.head?.toList.map (false, ·) ++ picks fuel rest
    else picks fuel rest

variable (weight : ω → Nat) (fuel : Nat) (words : List ω)

theorem from_picks_weight :
    ((fromPicks look words).1.map weight).sum + ((fromPicks look words).2.map weight).sum ≤
      (words.map weight).sum := by
  fun_induction fromPicks look words with
  | case7 word stops comma alias_ more leads short =>
    simp only [map_cons, sum_cons, map_nil, sum_nil]
    omega
  | _ =>
    simp only [map_cons, sum_cons, map_nil, sum_nil] at *
    omega

theorem tail_weight :
    (words.tail.map weight).sum ≤ (words.map weight).sum := by
  cases words with
  | nil => exact Nat.le_refl _
  | cons word rest =>
    exact Nat.le_add_left _ _

theorem picks_table (word : ω) (rest : List ω) (table : (look word).keyword = "TABLE") :
    picks look (fuel + 1) (word :: rest) = picks look fuel rest := by
  rw [picks, table]
  simp

/-- No word is taken for a table twice: the words behind the first weigh as much at most. -/
theorem picks_weight :
    ((picks look fuel words).map fun pick => weight pick.2).sum ≤ (words.tail.map weight).sum := by
  induction fuel using Nat.strong_induction_on generalizing words with
  | h fuel ih =>
    match fuel, words with
    | 0, _ | _ + 1, [] => exact Nat.zero_le _
    | fuel + 1, word :: rest =>
      rw [picks, tail_cons]
      split
      · have listed := from_picks_weight look weight rest
        have later := ih fuel (Nat.lt_succ_self fuel) (fromPicks look rest).2
        have behind := tail_weight weight (fromPicks look rest).2
        have names : ((fromPicks look rest).1.map (true, ·)).map (fun pick => weight pick.2) =
            (fromPicks look rest).1.map weight := map_map
        rw [map_append, sum_append, names]
        omega
      · split
        · have later := ih fuel (Nat.lt_succ_self fuel) rest
          cases rest with
          | nil | cons next rest => simpa using later
        · split
          · match rest with
            | [] =>
              have later := ih fuel (Nat.lt_succ_self fuel) []
              simpa using later
            | next :: rest =>
              by_cases table : (look next).keyword = "TABLE"
              · match fuel with
                | 0 =>
                  cases rest with
                  | nil => simp [picks, table]
                  | cons named rest =>
                    simp [picks, table]
                    omega
                | fuel + 1 =>
                  have later := ih fuel (by omega) rest
                  rw [picks_table look fuel next rest table]
                  cases rest with
                  | nil =>
                    simp at later
                    simp [table, later]
                  | cons named rest =>
                    simp [table] at later ⊢
                    omega
              · have later := ih fuel (Nat.lt_succ_self fuel) (next :: rest)
                simpa [table] using later
          · exact (ih fuel (Nat.lt_succ_self fuel) rest).trans (tail_weight weight rest)

theorem picks_word {pick : Bool × ω} (member : pick ∈ picks look fuel words) : pick.2 ∈ words := by
  classical
  let weight : ω → Nat := fun word => if word = pick.2 then 1 else 0
  have heavy : 0 < ((picks look fuel words).map fun pick => weight pick.2).sum := by
    apply List.sum_pos_iff_exists_pos_nat.mpr
    exact ⟨1, mem_map.mpr ⟨pick, member, if_pos rfl⟩, Nat.one_pos⟩
  have weighed := Nat.lt_of_lt_of_le heavy (picks_weight look weight fuel words)
  obtain ⟨_, inside, positive⟩ := List.sum_pos_iff_exists_pos_nat.mp weighed
  obtain ⟨word, behind, rfl⟩ := mem_map.mp inside
  by_cases same : word = pick.2
  · rw [← same]
    exact mem_of_mem_tail behind
  · simp [weight, same] at positive

end Picks

section Extraction

variable {ω : Type u} (text : ω → Word)

def nameOf (trimmed : Bool) (word : Word) : Word :=
  unqualified (if trimmed then trimMarks word else word)

theorem from_list_picks (words : List ω) :
    fromList (words.map text) =
      ((fromPicks (lookOf ∘ text) words).1.map (nameOf true ∘ text),
        (fromPicks (lookOf ∘ text) words).2.map text) := by
  fun_induction fromPicks (lookOf ∘ text) words with
  | case1 => simp [fromList]
  | case2 word rest stops =>
    simp [lookOf] at stops
    simp [fromList, stops]
  | case3 word rest stops comma ih =>
    simp [lookOf] at stops comma
    simp [fromList, stops, comma, ih, nameOf]
  | case4 word stops comma =>
    simp [lookOf] at stops comma
    simp [fromList, stops, nameOf]
  | case5 word stops comma alias_ leads other next left follows ih =>
    simp [lookOf] at stops comma leads follows
    simp [fromList, stops, comma, leads, follows, ih, nameOf]
  | case6 word stops comma alias_ leads other next left follows =>
    simp [lookOf] at stops comma leads follows
    simp [fromList, stops, comma, leads, follows, nameOf]
  | case7 word stops comma alias_ more leads short =>
    simp [lookOf] at stops comma leads
    match more, short with
    | [], _ | [_], _ => simp [fromList, stops, comma, leads, nameOf]
    | other :: next :: left, short => exact (short other next left rfl).elim
  | case8 word stops comma alias_ more leads follows ih =>
    simp [lookOf] at stops comma leads follows
    simp [fromList, stops, comma, leads, follows, ih, nameOf]
  | case9 word stops comma alias_ leads apart isAlias next left follows ih =>
    simp [lookOf] at stops comma leads apart isAlias follows
    simp [fromList, stops, comma, leads, apart, isAlias, follows, ih, nameOf]
  | case10 word stops comma alias_ leads apart isAlias next left follows =>
    simp [lookOf] at stops comma leads apart isAlias follows
    simp [fromList, stops, comma, leads, apart, isAlias, follows, nameOf]
  | case11 word stops comma alias_ leads apart isAlias =>
    simp [lookOf] at stops comma leads apart isAlias
    simp [fromList, stops, comma, isAlias, nameOf]
  | case12 word stops comma alias_ more leads apart isAlias =>
    simp [lookOf] at stops comma leads apart isAlias
    simp [fromList, stops, comma, leads, apart, nameOf]
    intro open_ boundary
    exact absurd (isAlias open_) (by simp [boundary])

theorem extract_picks (fuel : Nat) (out : List String) (words : List ω) :
    extractFrom fuel out (words.map text) =
      ((picks (lookOf ∘ text) fuel words).map fun pick => nameOf pick.1 (text pick.2)).foldl
        pushTable out := by
  induction fuel generalizing out words with
  | zero => rfl
  | succ fuel ih =>
    cases words with
    | nil => rfl
    | cons word rest =>
      unfold picks
      rw [map_cons, extractFrom]
      simp only [Function.comp_apply, show ∀ word, (lookOf word).keyword = upper word from
        fun _ => rfl]
      split
      · rw [from_list_picks, ih, map_append, foldl_append, map_map]
        rfl
      · split
        · rw [ih]
          cases rest <;> rfl
        · split
          · rw [ih]
            have table : (rest.map text).head?.map upper =
                rest.head?.map fun word => upper (text word) := by
              cases rest <;> rfl
            rw [table]
            split
            · match rest with
              | [] | [_] | _ :: _ :: _ => rfl
            · cases rest <;> rfl
          · exact ih out rest

theorem mem_push_tables (name : String) (tables : List Word) (out : List String) :
    name ∈ tables.foldl pushTable out ↔
      name ∈ out ∨ ∃ table ∈ tables, String.ofList table = name := by
  induction tables generalizing out with
  | nil => simp
  | cons table rest ih =>
    rw [foldl_cons, ih]
    have pushed : name ∈ pushTable out table ↔ name ∈ out ∨ String.ofList table = name := by
      unfold pushTable
      split
      · rename_i last
        have member : String.ofList table ∈ out := mem_of_getLast? last
        constructor
        · exact Or.inl
        · rintro (before | rfl)
          · exact before
          · exact member
      · simp [eq_comm]
    rw [pushed]
    simp [or_assoc]

end Extraction

end OnlyJs.Bridge.Guard
