import OnlyJs.Bridge.Guard.Tokens
import OnlyJs.Lib.LetterCase

/-!
# The word scanner over tagged characters

Where the words of a text begin and end depends on its characters up to the case of letters.
The scanner is run here on tags, each under the lower case of its character, and a word comes
out as its tags with whether it was quoted. Every text with these characters, in whatever
case, has these words.
-/

namespace OnlyJs.Bridge.Guard

open Lib.LetterCase List

universe u

variable {α : Type u}

section Scanner

inductive TagMode (α : Type u) where
  | plain
  | literal
  | quoted (mark : Char) (read : List α)
  | lineComment
  | blockComment

structure Tagged (α : Type u) where
  word : List α
  out : List (Bool × List α)

def Tagged.start : Tagged α where
  word := []
  out := []

def Tagged.push (tagged : Tagged α) (word : List α) : Tagged α :=
  { tagged with out := tagged.out ++ [(true, word)] }

def Tagged.flush (tagged : Tagged α) : Tagged α :=
  if tagged.word.isEmpty then tagged
  else { word := [], out := tagged.out ++ [(false, tagged.word)] }

def Tagged.drop (tagged : Tagged α) : Tagged α := { tagged with word := [] }

def Tagged.char (tagged : Tagged α) (c : Char) (tag : α) : Tagged α :=
  if isTokenChar c then { tagged with word := tagged.word ++ [tag] } else tagged.flush

/-- `scanTokens`, with a tag beside each character. -/
def scanTagged : TagMode α → Tagged α → List (Char × α) → List (Bool × List α)
  | .plain, tagged, [] => tagged.flush.out
  | .plain, tagged, ('\x27', _) :: rest => scanTagged .literal tagged.flush rest
  | .plain, tagged, ('\x22', _) :: rest => scanTagged (.quoted '\x22' []) tagged.flush rest
  | .plain, tagged, ('\x60', _) :: rest => scanTagged (.quoted '\x60' []) tagged.flush rest
  | .plain, tagged, ('-', _) :: ('-', _) :: rest => scanTagged .lineComment tagged.drop rest
  | .plain, tagged, ('/', _) :: ('*', _) :: rest => scanTagged .blockComment tagged.drop rest
  | .plain, tagged, (c, tag) :: rest => scanTagged .plain (tagged.char c tag) rest
  | .literal, tagged, [] => tagged.flush.out
  | .literal, tagged, [('\x5c', _)] => tagged.flush.out
  | .literal, tagged, ('\x5c', _) :: _ :: rest => scanTagged .literal tagged rest
  | .literal, tagged, ('\x27', _) :: ('\x27', _) :: rest => scanTagged .literal tagged rest
  | .literal, tagged, ('\x27', _) :: rest => scanTagged .plain tagged rest
  | .literal, tagged, _ :: rest => scanTagged .literal tagged rest
  | .quoted _ read, tagged, [] => (tagged.push read).out
  | .quoted _ read, tagged, [('\x5c', tag)] => (tagged.push (read ++ [tag])).out
  | .quoted mark read, tagged, ('\x5c', tag) :: (_, other) :: rest =>
    scanTagged (.quoted mark (read ++ [tag, other])) tagged rest
  | .quoted mark read, tagged, [(c, tag)] =>
    if c = mark then scanTagged .plain (tagged.push read) []
    else (tagged.push (read ++ [tag])).out
  | .quoted mark read, tagged, (c, tag) :: (d, other) :: rest =>
    if c = mark then
      if d = mark then scanTagged (.quoted mark (read ++ [tag, other])) tagged rest
      else scanTagged .plain (tagged.push read) ((d, other) :: rest)
    else scanTagged (.quoted mark (read ++ [tag])) tagged ((d, other) :: rest)
  | .lineComment, tagged, [] => tagged.flush.out
  | .lineComment, tagged, ('\n', _) :: rest => scanTagged .plain tagged rest
  | .lineComment, tagged, _ :: rest => scanTagged .lineComment tagged rest
  | .blockComment, tagged, [] => tagged.flush.out
  | .blockComment, tagged, ('*', _) :: ('/', _) :: rest => scanTagged .plain tagged rest
  | .blockComment, tagged, _ :: rest => scanTagged .blockComment tagged rest

end Scanner

section Forget

variable (f : α → Char)

def TagMode.forget : TagMode α → TokenMode
  | plain => .plain
  | literal => .literal
  | quoted mark read => .quoted mark (read.map f)
  | lineComment => .lineComment
  | blockComment => .blockComment

def Tagged.forget (tagged : Tagged α) : Tokens where
  word := tagged.word.map f
  out := tagged.out.map fun word => word.2.map f

theorem forget_flush (tagged : Tagged α) : tagged.flush.forget f = (tagged.forget f).flush := by
  obtain ⟨word, out⟩ := tagged
  cases word with
  | nil => rfl
  | cons tag rest => simp [Tagged.flush, Tagged.forget, Tokens.flush]

theorem forget_push (tagged : Tagged α) (word : List α) :
    (tagged.push word).forget f = (tagged.forget f).push (word.map f) := by
  simp [Tagged.push, Tagged.forget, Tokens.push]

theorem forget_drop (tagged : Tagged α) : tagged.drop.forget f = (tagged.forget f).drop := rfl

theorem token_char_lower (c : Char) : isTokenChar c.toLower = isTokenChar c := by
  have same := same_letter_lower c
  cases alpha : c.isAlpha with
  | true => simp [isTokenChar, Char.isAlphanum, same.alpha, alpha]
  | false => rw [same.eq (same.alpha.trans alpha)]

theorem forget_char (tagged : Tagged α) (tag : α) :
    (tagged.char (f tag).toLower tag).forget f = (tagged.forget f).char (f tag) := by
  unfold Tagged.char Tokens.char
  rw [token_char_lower]
  split
  · simp [Tagged.forget]
  · exact forget_flush f tagged

theorem tag_eq {c d : Char} (lower : c = d.toLower) (plain : c.isAlpha = false) : d = c :=
  ((lower ▸ same_letter_lower d : SameLetter c d).eq plain).symm

theorem tag_ne {c d mark : Char} (lower : c = d.toLower) (plain : mark.isAlpha = false)
    (apart : c ≠ mark) : d ≠ mark := by
  rintro rfl
  exact apart (lower.trans ((same_letter_lower d).eq ((same_letter_lower d).alpha.trans plain)))

end Forget

section Agreement

/-- Each tag stands beside the lower case of its character. -/
def Lowered (f : α → Char) (text : List (Char × α)) : Prop :=
  ∀ pair ∈ text, pair.1 = (f pair.2).toLower

def TagMode.marked : TagMode α → Prop
  | quoted mark _ => mark.isAlpha = false
  | _ => True

variable {f : α → Char} {c : Char} {tag : α} {rest : List (Char × α)}

section

variable (lowered : Lowered f ((c, tag) :: rest))
include lowered

theorem Lowered.tail : Lowered f rest :=
  fun pair member => lowered pair (mem_cons_of_mem _ member)

theorem Lowered.head : c = (f tag).toLower :=
  lowered _ mem_cons_self

theorem Lowered.char (plain : c.isAlpha = false) :
    f tag = c :=
  tag_eq lowered.head plain

theorem Lowered.ne {mark : Char} (apart : c ≠ mark) (plain : mark.isAlpha = false) : f tag ≠ mark :=
  tag_ne lowered.head plain apart

end

theorem Lowered.head_ne (lowered : Lowered f rest) (mark : Char) (plain : mark.isAlpha = false)
    (apart : ∀ tag later, rest = (mark, tag) :: later → False) :
    (rest.map fun pair => f pair.2).head? ≠ some mark := by
  cases rest with
  | nil => nofun
  | cons pair later =>
    obtain ⟨d, other⟩ := pair
    intro same
    have ne : d ≠ mark := by
      rintro rfl
      exact apart other later rfl
    exact lowered.ne ne plain (Option.some.inj same)

attribute [local simp] scanTokens TagMode.forget

/-- A text has the words that its tags have. -/
theorem scan_tagged (f : α → Char) (mode : TagMode α) (tagged : Tagged α)
    (text : List (Char × α)) (lowered : Lowered f text) (marked : mode.marked) :
    scanTokens (mode.forget f) (tagged.forget f) (text.map fun pair => f pair.2) =
      (scanTagged mode tagged text).map fun word => word.2.map f := by
  have ended : ∀ tagged : Tagged α, (tagged.forget f).flush.out =
      tagged.flush.out.map fun word => word.2.map f := by
    intro tagged
    rw [← forget_flush]
    rfl
  fun_induction scanTagged mode tagged text with
  | case1 tagged | case8 tagged | case22 tagged | case25 tagged => exact ended tagged
  | case9 tagged tag =>
    rw [map_cons, lowered.char rfl]
    exact ended tagged
  | case2 tagged tag rest ih =>
    rw [← ih lowered.tail trivial, forget_flush, map_cons, lowered.char rfl]
    simp
  | case3 tagged tag rest ih | case4 tagged tag rest ih =>
    rw [← ih lowered.tail rfl, forget_flush, map_cons, lowered.char rfl]
    simp
  | case5 tagged tag other rest ih | case6 tagged tag other rest ih =>
    rw [← ih lowered.tail.tail trivial, map_cons, map_cons, lowered.char rfl,
      lowered.tail.char rfl]
    simp [forget_drop]
  | case7 tagged c tag rest single double back minus slash ih =>
    have unquoted : f tag ∉ ['\x27', '\x22', '\x60'] := by
      simp only [mem_cons, not_mem_nil, or_false, not_or]
      exact ⟨lowered.ne single rfl, lowered.ne double rfl, lowered.ne back rfl⟩
    have dash : f tag = '-' → (rest.map fun pair => f pair.2).head? ≠ some '-' := by
      intro same
      apply lowered.tail.head_ne '-' rfl
      intro other later split
      exact minus other later split (lowered.head.trans (by rw [same]; rfl))
    have bar : f tag = '/' → (rest.map fun pair => f pair.2).head? ≠ some '*' := by
      intro same
      apply lowered.tail.head_ne '*' rfl
      intro other later split
      exact slash other later split (lowered.head.trans (by rw [same]; rfl))
    have later := ih lowered.tail trivial
    rw [lowered.head, forget_char] at later
    rw [lowered.head, ← later]
    exact tokens_char (tagged.forget f) (f tag) _ unquoted dash bar
  | case10 tagged tag pair rest ih =>
    rw [← ih lowered.tail.tail trivial, map_cons, lowered.char rfl]
    simp
  | case11 tagged tag other rest ih =>
    rw [← ih lowered.tail.tail trivial, map_cons, map_cons, lowered.char rfl,
      lowered.tail.char rfl]
    simp
  | case12 tagged tag rest apart ih =>
    rw [← ih lowered.tail trivial, map_cons, lowered.char rfl]
    have other := lowered.tail.head_ne '\x27' rfl apart
    cases rest with
    | nil => simp
    | cons pair rest =>
      have other : f pair.2 ≠ '\x27' := fun same => other (congrArg some same)
      simp [other]
  | case13 tagged pair rest lone escape doubled closes ih =>
    obtain ⟨c, tag⟩ := pair
    have open_ : f tag ≠ '\x27' :=
      lowered.ne (fun same => closes tag (by rw [same])) rfl
    have plain : f tag ≠ '\x5c' := by
      apply lowered.ne _ rfl
      intro same
      cases rest with
      | nil => exact lone tag (by rw [same]) rfl
      | cons next rest => exact escape tag next rest (by rw [same]) rfl
    rw [← ih lowered.tail trivial]
    simp [open_, plain]
  | case14 mark read tagged =>
    simp [Tokens.push, Tagged.push, Tagged.forget]
  | case15 mark read tagged tag =>
    simp [Tokens.push, Tagged.push, Tagged.forget, lowered.char rfl]
  | case16 mark read tagged tag c other rest ih =>
    have later := ih lowered.tail.tail marked
    rw [← later]
    simp [lowered.char rfl]
  | case17 read tagged c tag plain ih =>
    rw [← ih lowered.tail trivial, forget_push, map_cons, lowered.char marked]
    simp
  | case18 mark read tagged c tag plain open_ =>
    have apart : f tag ≠ mark := lowered.ne open_ marked
    have escape : f tag ≠ '\x5c' := lowered.ne plain rfl
    simp [Tokens.push, Tagged.push, Tagged.forget, apart]
  | case19 read tagged tag d other rest plain ih =>
    rw [← ih lowered.tail.tail marked]
    simp [lowered.char marked, lowered.tail.char marked]
  | case20 read tagged c tag d other rest plain apart ih =>
    have different : f other ≠ c := lowered.tail.ne apart marked
    rw [← ih lowered.tail trivial, forget_push, map_cons,
      lowered.char marked]
    simp [different]
  | case21 mark read tagged c tag d other rest plain open_ ih =>
    have apart : f tag ≠ mark := lowered.ne open_ marked
    have escape : f tag ≠ '\x5c' := lowered.ne plain rfl
    rw [← ih lowered.tail marked]
    simp [apart]
  | case23 tagged tag rest ih =>
    rw [← ih lowered.tail trivial, map_cons, lowered.char rfl]
    simp
  | case24 tagged pair rest apart ih =>
    obtain ⟨c, tag⟩ := pair
    have other : f tag ≠ '\n' := lowered.ne (fun same => apart tag (by rw [same])) rfl
    rw [← ih lowered.tail trivial]
    simp
  | case26 tagged tag other rest ih =>
    rw [← ih lowered.tail.tail trivial, map_cons, map_cons, lowered.char rfl,
      lowered.tail.char rfl]
    simp
  | case27 tagged pair rest open_ ih =>
    obtain ⟨c, tag⟩ := pair
    rw [← ih lowered.tail trivial]
    by_cases star : c = '*'
    · have slash := lowered.tail.head_ne '/' rfl fun other later split =>
        open_ tag other later (by rw [star]) split
      cases rest with
      | nil => simp
      | cons next rest =>
        have slash : f next.2 ≠ '/' := fun same => slash (congrArg some same)
        simp [slash]
    · simp [lowered.ne star rfl]

end Agreement

section Outside

inductive Region where
  | plain
  | literal
  | quoted (mark : Char)
  | lineComment
  | blockComment

def outsideIn : Region → List Char → List Bool
  | _, [] => []
  | .plain, '\x27' :: rest => false :: outsideIn .literal rest
  | .plain, '\x22' :: rest => false :: outsideIn (.quoted '\x22') rest
  | .plain, '\x60' :: rest => false :: outsideIn (.quoted '\x60') rest
  | .plain, '-' :: '-' :: rest => false :: false :: outsideIn .lineComment rest
  | .plain, '/' :: '*' :: rest => false :: false :: outsideIn .blockComment rest
  | .plain, _ :: rest => true :: outsideIn .plain rest
  | .literal, '\x5c' :: _ :: rest => false :: false :: outsideIn .literal rest
  | .literal, '\x27' :: '\x27' :: rest => false :: false :: outsideIn .literal rest
  | .literal, '\x27' :: rest => false :: outsideIn .plain rest
  | .literal, _ :: rest => false :: outsideIn .literal rest
  | .quoted mark, '\x5c' :: _ :: rest => false :: false :: outsideIn (.quoted mark) rest
  | .quoted _, [_] => [false]
  | .quoted mark, c :: d :: rest =>
    if c = mark then
      if d = mark then false :: false :: outsideIn (.quoted mark) rest
      else false :: outsideIn .plain (d :: rest)
    else false :: outsideIn (.quoted mark) (d :: rest)
  | .lineComment, '\n' :: rest => false :: outsideIn .plain rest
  | .lineComment, _ :: rest => false :: outsideIn .lineComment rest
  | .blockComment, '*' :: '/' :: rest => false :: false :: outsideIn .plain rest
  | .blockComment, _ :: rest => false :: outsideIn .blockComment rest

def outside (sql : List Char) : List Bool := outsideIn .plain (sql.map Char.toLower)

def TagMode.region : TagMode α → Region
  | plain => .plain
  | literal => .literal
  | quoted mark _ => .quoted mark
  | lineComment => .lineComment
  | blockComment => .blockComment

/-- Quoted words are made of enclosed tags, the others of tags outside. -/
def Parted (flag : α → Bool) (words : List (Bool × List α)) : Prop :=
  ∀ word ∈ words, ∀ tag ∈ word.2, flag tag = !word.1

structure Tagged.Parts (flag : α → Bool) (tagged : Tagged α) : Prop where
  word : ∀ tag ∈ tagged.word, flag tag = true
  out : Parted flag tagged.out

def TagMode.Encloses (flag : α → Bool) : TagMode α → Prop
  | quoted _ read => ∀ tag ∈ read, flag tag = false
  | _ => True

variable {flag : α → Bool} {tagged : Tagged α}

section

variable (parts : tagged.Parts flag)
include parts

theorem parts_flush : tagged.flush.Parts flag := by
  unfold Tagged.flush
  split
  · exact parts
  · refine ⟨nofun, ?_⟩
    intro word member
    rcases mem_append.mp member with before | last
    · exact parts.out word before
    · cases mem_singleton.mp last
      exact parts.word

theorem parts_drop : tagged.drop.Parts flag := ⟨nofun, parts.out⟩

theorem parts_push {read : List α} (enclosed : ∀ tag ∈ read, flag tag = false) :
    (tagged.push read).Parts flag := by
  refine ⟨parts.word, ?_⟩
  intro word member
  rcases mem_append.mp member with before | last
  · exact parts.out word before
  · cases mem_singleton.mp last
    exact enclosed

theorem parts_char {tag : α} (out : flag tag = true) (c : Char) :
    (tagged.char c tag).Parts flag := by
  unfold Tagged.char
  split
  · refine ⟨?_, parts.out⟩
    intro other member
    rcases mem_append.mp member with before | last
    · exact parts.word other before
    · rw [mem_singleton.mp last]
      exact out
  · exact parts_flush parts

end

theorem enclosed_snoc {read : List α} (enclosed : ∀ tag ∈ read, flag tag = false) {more : List α}
    (later : ∀ tag ∈ more, flag tag = false) : ∀ tag ∈ read ++ more, flag tag = false := by
  intro tag member
  rcases mem_append.mp member with before | last
  · exact enclosed tag before
  · exact later tag last

attribute [local simp] outsideIn TagMode.region

theorem outside_length (region : Region) (text : List Char) :
    (outsideIn region text).length = text.length := by
  fun_induction outsideIn region text <;> simp_all

theorem scan_parted (flag : α → Bool) (mode : TagMode α) (tagged : Tagged α)
    (text : List (Char × α))
    (flags : text.map (fun pair => flag pair.2) = outsideIn mode.region (text.map Prod.fst))
    (parts : tagged.Parts flag) (encloses : mode.Encloses flag) :
    Parted flag (scanTagged mode tagged text) := by
  fun_induction scanTagged mode tagged text with
  | case1 | case8 | case9 | case22 | case25 => exact (parts_flush parts).out
  | case2 tagged tag rest ih =>
    simp at flags
    exact ih flags.2 (parts_flush parts) trivial
  | case3 tagged tag rest ih | case4 tagged tag rest ih =>
    simp at flags
    exact ih flags.2 (parts_flush parts) nofun
  | case5 tagged tag other rest ih | case6 tagged tag other rest ih =>
    simp at flags
    exact ih flags.2.2 (parts_drop parts) trivial
  | case7 tagged c tag rest single double back minus slash ih =>
    have dash : ∀ later : List Char, c = '-' → rest.map Prod.fst = '-' :: later → False := by
      intro later same split
      obtain ⟨pair, more, rfl, head, -⟩ := map_eq_cons_iff.mp split
      exact minus pair.2 more (by rw [← head]) same
    have bar : ∀ later : List Char, c = '/' → rest.map Prod.fst = '*' :: later → False := by
      intro later same split
      obtain ⟨pair, more, rfl, head, -⟩ := map_eq_cons_iff.mp split
      exact slash pair.2 more (by rw [← head]) same
    simp at flags
    exact ih flags.2 (parts_char parts flags.1 c) trivial
  | case10 tagged tag pair rest ih | case11 tagged tag other rest ih =>
    simp at flags
    exact ih flags.2.2 parts trivial
  | case12 tagged tag rest apart ih =>
    have single : ∀ later : List Char, rest.map Prod.fst = '\x27' :: later → False := by
      intro later split
      obtain ⟨pair, more, rfl, head, -⟩ := map_eq_cons_iff.mp split
      exact apart pair.2 more (by rw [← head])
    simp at flags
    exact ih flags.2 parts trivial
  | case13 tagged pair rest lone escape doubled closes ih =>
    obtain ⟨c, tag⟩ := pair
    have open_ : c = '\x27' → False := fun same => closes tag (by rw [same])
    have plain : ∀ (d : Char) (later : List Char), c = '\x5c' →
        rest.map Prod.fst = d :: later → False := by
      intro d later same split
      obtain ⟨next, more, rfl, -, -⟩ := map_eq_cons_iff.mp split
      exact escape tag next more (by rw [same]) rfl
    have twice : ∀ later : List Char, c = '\x27' → rest.map Prod.fst = '\x27' :: later →
        False := fun _ same _ => open_ same
    simp at flags
    exact ih flags.2 parts trivial
  | case14 mark read tagged => exact (parts_push parts encloses).out
  | case15 mark read tagged tag =>
    simp at flags
    exact (parts_push parts (enclosed_snoc encloses (by simp [flags]))).out
  | case16 mark read tagged tag c other rest ih =>
    simp at flags
    exact ih flags.2.2 parts (enclosed_snoc encloses (by simp [flags]))
  | case17 read tagged c tag plain ih => exact ih rfl (parts_push parts encloses) trivial
  | case18 mark read tagged c tag plain open_ =>
    simp at flags
    exact (parts_push parts (enclosed_snoc encloses (by simp [flags]))).out
  | case19 read tagged tag d other rest plain ih =>
    simp at flags
    exact ih flags.2.2 parts (enclosed_snoc encloses (by simp [flags]))
  | case20 read tagged c tag d other rest plain apart ih =>
    simp [apart] at flags
    exact ih (by simp [flags.2]) (parts_push parts encloses) trivial
  | case21 mark read tagged c tag d other rest plain open_ ih =>
    simp [open_] at flags
    exact ih (by simp [flags.2]) parts (enclosed_snoc encloses (by simp [flags]))
  | case23 tagged tag rest ih =>
    simp at flags
    exact ih flags.2 parts trivial
  | case24 tagged pair rest apart ih =>
    obtain ⟨c, tag⟩ := pair
    have other : c = '\n' → False := fun same => apart tag (by rw [same])
    simp at flags
    exact ih flags.2 parts trivial
  | case26 tagged tag other rest ih =>
    simp at flags
    exact ih flags.2.2 parts trivial
  | case27 tagged pair rest open_ ih =>
    obtain ⟨c, tag⟩ := pair
    have star : ∀ later : List Char, c = '*' → rest.map Prod.fst = '/' :: later → False := by
      intro later same split
      obtain ⟨next, more, rfl, head, -⟩ := map_eq_cons_iff.mp split
      exact open_ tag next.2 more (by rw [same]) (by rw [← head])
    simp at flags
    exact ih flags.2 parts trivial

end Outside

section Once

variable [DecidableEq α]

def TagMode.read : TagMode α → List α
  | quoted _ read => read
  | _ => []

def uses (tag : α) (words : List (Bool × List α)) : Nat :=
  (words.map fun word => word.2.count tag).sum

theorem uses_snoc (tag : α) (words : List (Bool × List α)) (word : Bool × List α) :
    uses tag (words ++ [word]) = uses tag words + word.2.count tag := by
  simp [uses]

theorem uses_flush (tag : α) (tagged : Tagged α) :
    uses tag tagged.flush.out + tagged.flush.word.count tag =
      uses tag tagged.out + tagged.word.count tag := by
  unfold Tagged.flush
  split
  · rfl
  · simp [uses_snoc]

theorem uses_push (tag : α) (tagged : Tagged α) (read : List α) :
    uses tag (tagged.push read).out = uses tag tagged.out + read.count tag :=
  uses_snoc tag tagged.out (true, read)

theorem uses_char (tag : α) (tagged : Tagged α) (c : Char) (more : α) :
    uses tag (tagged.char c more).out + (tagged.char c more).word.count tag ≤
      uses tag tagged.out + tagged.word.count tag + [more].count tag := by
  unfold Tagged.char
  split
  · simp only [count_append]
    omega
  · rw [uses_flush]
    exact Nat.le_add_right _ _

theorem scan_uses (tag : α) (mode : TagMode α) (tagged : Tagged α) (text : List (Char × α)) :
    uses tag (scanTagged mode tagged text) ≤ uses tag tagged.out + tagged.word.count tag +
      mode.read.count tag + (text.map Prod.snd).count tag := by
  fun_induction scanTagged mode tagged text with
  | case1 tagged | case8 tagged | case9 tagged | case22 tagged | case25 tagged =>
    have flushed := uses_flush tag tagged
    omega
  | case2 tagged _ rest ih | case3 tagged _ rest ih | case4 tagged _ rest ih =>
    have flushed := uses_flush tag tagged
    simp only [TagMode.read, map_cons, count_cons] at ih ⊢
    omega
  | case5 tagged _ _ rest ih | case6 tagged _ _ rest ih =>
    have dropped : uses tag tagged.drop.out = uses tag tagged.out := rfl
    have empty : tagged.drop.word.count tag = 0 := rfl
    simp only [TagMode.read, map_cons, count_cons] at ih ⊢
    omega
  | case7 tagged c other rest _ _ _ _ _ ih =>
    have read := uses_char tag tagged c other
    simp only [map_cons, count_cons, count_nil] at ih read ⊢
    omega
  | case14 mark read tagged =>
    rw [uses_push]
    simp only [TagMode.read]
    omega
  | case15 mark read tagged other | case18 mark read tagged _ other =>
    rw [uses_push]
    simp only [TagMode.read, map_cons, count_append, map_nil]
    omega
  | case17 read tagged c other plain ih | case20 read tagged c other _ _ rest _ _ ih =>
    have pushed := uses_push tag tagged read
    have word : (tagged.push read).word = tagged.word := rfl
    rw [word] at ih
    simp only [TagMode.read, map_cons, count_cons, count_nil] at ih ⊢
    omega
  | _ =>
    rename_i ih
    simp only [TagMode.read, map_cons, count_append, count_cons, count_nil]
      at ih ⊢
    omega

end Once

end OnlyJs.Bridge.Guard
