import Mathlib.Data.List.TakeWhile
import OnlyJs.Bridge.Placeholder.Normalize

/-!
# Rewritten placeholders read back

The rewriting is sound when every inserted number is read as that parameter and
a second run changes nothing. This holds exactly when no bare question mark
touches a character that can belong to an identifier, or another bare question
mark, and the numbers fit the machine word.
-/

namespace OnlyJs.Bridge.Placeholder

open Lib.Lexing List Option

/-- The pieces with their bare question marks numbered from `first` on. -/
def numbered : Nat → List Piece → List Piece
  | _, [] => []
  | first, .mark :: rest => .param (Nat.toDigits 10 first) :: numbered (first + 1) rest
  | first, piece :: rest => piece :: numbered first rest

def render (first : Nat) (pieces : List Piece) : List Char := lexer.text (numbered first pieces)

def clearAhead (pieces : List Piece) : Bool := !(lexer.text pieces).head?.any isIdentChar

/-- No bare question mark touches an identifier character or another bare one;
`before` is what stands in front, the nearest character first. -/
def separated : Bool → List Char → List Piece → Bool
  | _, _, [] => true
  | afterMark, before, .mark :: rest =>
    !afterMark && boundary before && clearAhead rest && separated true ('?' :: before) rest
  | _, before, piece :: rest => separated false (piece.source.reverse ++ before) rest

/-- Every inserted number is read, where it stands, as the parameter of that number. -/
def Recognised (first : Nat) (pieces outs : List Piece) : Prop :=
  ∀ earlier later, pieces = earlier ++ .mark :: later →
    ∃ front back, outs = front ++ .param (Nat.toDigits 10 (first + countMarks earlier)) :: back ∧
      lexer.text front = render first earlier

/-- What a rewriting promises: the output differs in the bare question marks only,
their numbers follow the largest one in use, fit the machine word and are read
back, the count is the largest number of the output, and a second run changes
nothing. -/
structure Sound (sql out : List Char) (count : Nat) (pieces outs : List Piece) : Prop where
  scanned : lexer.pieces sql = .ok pieces
  rescanned : lexer.pieces out = .ok outs
  rewritten : out = render (maxParam pieces + 1) pieces
  fits : maxParam pieces + countMarks pieces < usizeSpan
  recognised : Recognised (maxParam pieces + 1) pieces outs
  largest : count = maxParam outs
  stable : normalizePlaceholders out = .ok (out, count)

/-- Two continuations that a piece cannot tell apart: they share the identifier
characters at the front and the character after these. Where the first goes on
with a question mark and the second with a dollar sign, nothing of an identifier
may stand in front. -/
def SameAhead (clear : Bool) (left other : List Char) : Prop :=
  ∃ word tail tail', left = word ++ tail ∧ other = word ++ tail' ∧
    (∀ c ∈ word, isTagChar c = true) ∧ tail.head?.any isTagChar = false ∧
      (tail.head? = tail'.head? ∨
        word = [] ∧ clear = true ∧ tail.head? = some '?' ∧ tail'.head? = some '$')

variable {left other : List Char}

variable {clear : Bool}

theorem same_ahead_nil (same : SameAhead clear left other) (empty : left = []) :
    other = [] := by
  obtain ⟨word, tail, tail', rfl, rfl, -, -, heads | ⟨-, -, question, -⟩⟩ := same
  · obtain ⟨rfl, rfl⟩ := append_eq_nil_iff.mp empty
    exact head?_eq_none_iff.mp heads.symm
  · obtain ⟨rfl, rfl⟩ := append_eq_nil_iff.mp empty
    cases question

theorem same_ahead_head (same : SameAhead clear left other) :
    left.head? = other.head? ∨
      clear = true ∧ left.head? = some '?' ∧ other.head? = some '$' := by
  obtain ⟨word, tail, tail', rfl, rfl, -, -, heads | ⟨rfl, clears, question, dollar⟩⟩ := same
  · cases word with
    | nil => exact .inl heads
    | cons c word => exact .inl rfl
  · exact .inr ⟨clears, question, dollar⟩

theorem same_ahead_iff (same : SameAhead clear left other) (c : Char) (question : c ≠ '?')
    (dollar : c ≠ '$') :
    left.head? = some c ↔ other.head? = some c := by
  rcases same_ahead_head same with heads | ⟨-, seen, seen'⟩
  · rw [heads]
  · rw [seen, seen']
    constructor
    · intro this
      exact absurd (Option.some.inj this).symm question
    · intro this
      exact absurd (Option.some.inj this).symm dollar

variable (mark : Char) (escapes : Bool)

theorem quotedBody_ne_nil (c : Char) (rest : List Char) :
    quotedBody mark escapes (c :: rest) ≠ [] := by
  cases rest with
  | nil => exact cons_ne_nil c []
  | cons d rest =>
    rw [quotedBody]
    split
    · exact cons_ne_nil _ _
    · split
      · split <;> exact cons_ne_nil _ _
      · exact cons_ne_nil _ _

variable (first number : Nat) (sql : List Char) (afterMark : Bool) (before digits : List Char)
  (piece : Piece) (earlier later rest pieces : List Piece) (before' : List Char) (c : Char)

theorem blockBody_ne_nil (rest : List Char) : blockBody (c :: rest) ≠ [] := by
  cases rest with
  | nil => exact cons_ne_nil c []
  | cons d rest =>
    rw [blockBody]
    split <;> exact cons_ne_nil _ _

theorem quotedBody_congr (more left other : List Char)
    (read : quotedBody mark escapes (more ++ left) = more) (nil : left = [] → other = [])
    (head : other.head? = some mark → left.head? = some mark) :
    quotedBody mark escapes (more ++ other) = more := by
  generalize whole : more ++ left = text at read
  fun_induction quotedBody mark escapes text generalizing more with
  | case1 =>
    obtain ⟨rfl, rfl⟩ := append_eq_nil_iff.mp whole
    rw [nil rfl]
    rfl
  | case2 c =>
    subst read
    rw [nil (append_cancel_left (whole.trans (append_nil _).symm))]
    rfl
  | case3 c d rest escaped ih =>
    subst read
    rw [cons_append, cons_append, quotedBody, if_pos escaped]
    rw [ih _ (List.cons.inj (List.cons.inj whole).2).2 rfl]
  | case4 rest unescaped ih =>
    subst read
    rw [cons_append, cons_append, quotedBody, if_neg unescaped, if_pos rfl, if_pos rfl]
    rw [ih _ (List.cons.inj (List.cons.inj whole).2).2 rfl]
  | case5 d rest single unescaped =>
    subst read
    have follows : left = d :: rest := (List.cons.inj whole).2
    cases other with
    | nil => rfl
    | cons e others =>
      have differs : e ≠ mark := by
        rintro rfl
        rw [follows] at head
        exact single (Option.some.inj (head rfl))
      rw [cons_append, nil_append, quotedBody, if_neg unescaped, if_pos rfl,
        if_neg differs]
  | case6 c d rest unescaped unmarked ih =>
    subst read
    have follows := (List.cons.inj whole).2
    have again := ih _ follows rfl
    obtain ⟨e, bodies, body⟩ := exists_cons_of_ne_nil (quotedBody_ne_nil mark escapes d rest)
    rw [body] at again ⊢
    rw [cons_append, cons_append, quotedBody, if_neg unescaped, if_neg unmarked,
      ← cons_append, again]

variable (more : List Char)

theorem blockBody_congr (left other : List Char) (read : blockBody (more ++ left) = more)
    (nil : left = [] → other = []) : blockBody (more ++ other) = more := by
  generalize whole : more ++ left = text at read
  fun_induction blockBody text generalizing more with
  | case1 =>
    obtain ⟨rfl, rfl⟩ := append_eq_nil_iff.mp whole
    rw [nil rfl]
    rfl
  | case2 c =>
    subst read
    rw [nil (append_cancel_left (whole.trans (append_nil _).symm))]
    rfl
  | case3 c d rest closes =>
    subst read
    rw [cons_append, cons_append, blockBody, if_pos closes]
  | case4 c d rest open_ ih =>
    subst read
    have follows := (List.cons.inj whole).2
    have again := ih _ follows rfl
    obtain ⟨e, bodies, body⟩ := exists_cons_of_ne_nil (blockBody_ne_nil d rest)
    have same : e = d := by
      rw [body] at follows
      exact (List.cons.inj follows).1
    subst same
    rw [body] at again ⊢
    rw [cons_append, cons_append, blockBody, if_neg open_, ← cons_append, again]

variable (tag : List Char)

theorem throughTag_length (body quoted : List Char) (found : throughTag tag body = some quoted) :
    tag.length ≤ quoted.length := by
  induction body generalizing quoted with
  | nil => cases found
  | cons c rest ih =>
    rw [throughTag] at found
    by_cases here : tag.isPrefixOf (c :: rest) = true
    · rw [if_pos here] at found
      cases found
      exact Nat.le_refl _
    · rw [if_neg here] at found
      obtain ⟨later, foundLater, rfl⟩ := map_eq_some_iff.mp found
      have bound := ih later foundLater
      rw [length_cons]
      omega

theorem throughTag_congr (quoted left other : List Char) (nonempty : tag ≠ [])
    (found : throughTag tag (quoted ++ left) = some quoted) :
    throughTag tag (quoted ++ other) = some quoted := by
  induction quoted with
  | nil =>
    have bound := throughTag_length tag _ _ found
    exact absurd (length_eq_zero_iff.mp (Nat.le_zero.mp bound)) nonempty
  | cons c quoted ih =>
    have long := throughTag_length tag _ _ found
    rw [cons_append, throughTag] at found ⊢
    have prefixes : ∀ more : List Char, tag.isPrefixOf (c :: (quoted ++ more)) = true ↔
        tag <+: c :: quoted := by
      intro more
      rw [ isPrefixOf_iff_prefix]
      constructor
      · exact fun starts => prefix_of_prefix_length_le starts (prefix_append _ _) long
      · exact fun starts => starts.trans (prefix_append _ _)
    by_cases here : tag.isPrefixOf (c :: (quoted ++ left)) = true
    · rw [if_pos here] at found
      rw [if_pos ((prefixes other).mpr ((prefixes left).mp here))]
      exact found
    · have absent : ¬ tag.isPrefixOf (c :: (quoted ++ other)) = true :=
        fun there => here ((prefixes left).mpr ((prefixes other).mp there))
      rw [if_neg here] at found
      obtain ⟨later, foundLater, same⟩ := map_eq_some_iff.mp found
      cases same
      rw [if_neg absent, ih foundLater]
      rfl

variable {p : Char → Bool}

variable (word tail : List Char)

theorem takeWhile_append_stop (stops : tail.head?.any p = false) :
    (word ++ tail).takeWhile p = word.takeWhile p ∧
      (word ++ tail).dropWhile p = word.dropWhile p ++ tail := by
  induction word with
  | nil =>
    cases tail with
    | nil => exact ⟨rfl, rfl⟩
    | cons c tail =>
      have fails : ¬ p c = true := by
        simpa using stops
      rw [nil_append, takeWhile_cons_of_neg fails, dropWhile_cons_of_neg fails]
      exact ⟨rfl, rfl⟩
  | cons c word ih =>
    rw [cons_append]
    by_cases passes : p c = true
    · rw [takeWhile_cons_of_pos passes, takeWhile_cons_of_pos passes,
        dropWhile_cons_of_pos passes, dropWhile_cons_of_pos passes, ih.1, ih.2]
      exact ⟨rfl, rfl⟩
    · rw [takeWhile_cons_of_neg passes, takeWhile_cons_of_neg passes,
        dropWhile_cons_of_neg passes, dropWhile_cons_of_neg passes]
      exact ⟨rfl, rfl⟩

theorem takeWhile_all (all : ∀ c ∈ word, p c = true) (stops : tail.head?.any p = false) :
    (word ++ tail).takeWhile p = word ∧ (word ++ tail).dropWhile p = tail := by
  obtain ⟨taken, dropped⟩ := takeWhile_append_stop word tail stops
  rw [taken, dropped, takeWhile_eq_self_iff.mpr all, dropWhile_eq_nil_iff.mpr all]
  exact ⟨rfl, rfl⟩

theorem takeWhile_exact (left : List Char) (taken : (word ++ left).takeWhile p = word) :
    (∀ c ∈ word, p c = true) ∧ left.head?.any p = false := by
  have dropped : (word ++ left).dropWhile p = left := by
    have whole := takeWhile_append_dropWhile (p := p) (l := word ++ left)
    rw [taken] at whole
    exact append_cancel_left whole
  constructor
  · intro c member
    rw [← taken] at member
    exact mem_takeWhile_imp member
  · have fails := head?_dropWhile_not p (word ++ left)
    rw [dropped] at fails
    cases left with
    | nil => rfl
    | cons c left => simpa using fails

theorem isTagChar_of_isDigit (digit : c.isDigit = true) : isTagChar c = true := by
  simp [isTagChar, Char.isAlphanum, digit]

theorem isIdentChar_of_isDigit (digit : c.isDigit = true) : isIdentChar c = true := by
  simp [isIdentChar, isTagChar_of_isDigit c digit]

theorem boundary_of_ident (before : List Char) (nonempty : word ≠ [])
    (all : ∀ c ∈ word, isIdentChar c = true) : boundary (word.reverse ++ before) = false := by
  obtain ⟨last, front, reversed⟩ :=
    exists_cons_of_ne_nil (reverse_eq_nil_iff.not.mpr nonempty)
  have member : last ∈ word := by
    rw [← mem_reverse, reversed]
    exact mem_cons_self
  rw [reversed, cons_append, boundary, all last member]
  rfl

theorem stops_mono {weak strong : Char → Bool} (left : List Char)
    (implied : ∀ c, strong c = true → weak c = true) (stops : left.head?.any weak = false) :
    left.head?.any strong = false := by
  cases left with
  | nil => rfl
  | cons c left =>
    simp only [head?_cons, any_some] at stops ⊢
    cases seen : strong c with
    | false => rfl
    | true => rw [implied c seen] at stops; exact stops

theorem head_not_tag (left : List Char) (undigit : left.head?.any Char.isDigit = false)
    (unglued : (left.head?.any fun c => c.isAlpha || c = '_') = false) :
    left.head?.any isTagChar = false := by
  cases left with
  | nil => rfl
  | cons c left =>
    simp only [head?_cons, any_some] at undigit unglued ⊢
    simp [isTagChar, Char.isAlphanum, undigit, unglued]

theorem nextDollar_param (left : List Char) (starts : boundary before = true)
    (nonempty : digits ≠ []) (number : ∀ c ∈ digits, c.isDigit = true)
    (positive : 1 ≤ paramNumber digits) (stops : left.head?.any isIdentChar = false) :
    nextDollar before (digits ++ left) = .ok (.param digits) := by
  have untagged : left.head?.any isTagChar = false :=
    stops_mono left (fun c tag => by simp [isIdentChar, tag]) stops
  have undigit : left.head?.any Char.isDigit = false :=
    stops_mono left isTagChar_of_isDigit untagged
  have glued : (left.head?.any fun c => c.isAlpha || c = '_') = false := by
    apply stops_mono left ?_ untagged
    intro c letter
    simp only [isTagChar, Char.isAlphanum, Bool.or_eq_true] at letter ⊢
    rcases letter with alpha | underscore
    · exact .inl (.inl alpha)
    · exact .inr underscore
  have tag := takeWhile_all digits left (fun c member => isTagChar_of_isDigit c (number c member))
    untagged
  have digitsTaken := takeWhile_all digits left number undigit
  unfold nextDollar
  rw [if_pos starts]
  rw [tag.2, digitsTaken.1, digitsTaken.2]
  split
  · rename_i body
    simp [isIdentChar] at stops
  · rw [if_pos ⟨nonempty, glued, positive⟩]

theorem nextDollar_quote_congr (left other body quoted : List Char)
    (starts : boundary before' = true) (closes : (more ++ left).dropWhile isTagChar = '$' :: body)
    (found : throughTag ('$' :: ((more ++ left).takeWhile isTagChar ++ ['$'])) body = some quoted)
    (source : more = (more ++ left).takeWhile isTagChar ++ '$' :: quoted) :
    nextDollar before' (more ++ other) =
      .ok (.text ('$' :: ((more ++ left).takeWhile isTagChar ++ '$' :: quoted))) := by
  have all : ∀ c ∈ (more ++ left).takeWhile isTagChar, isTagChar c = true :=
    fun c member => mem_takeWhile_imp member
  generalize (more ++ left).takeWhile isTagChar = tag at found source all ⊢
  have after : ∀ tail : List Char, (more ++ tail).takeWhile isTagChar = tag ∧
      (more ++ tail).dropWhile isTagChar = '$' :: (quoted ++ tail) := by
    intro tail
    rw [source, append_assoc]
    exact takeWhile_all tag _ all rfl
  have body_ : body = quoted ++ left := (List.cons.inj (closes.symm.trans (after left).2)).2
  rw [body_] at found
  have again := throughTag_congr _ quoted left other (cons_ne_nil _ _) found
  unfold nextDollar
  rw [if_pos starts]
  rw [(after other).1, (after other).2]
  simp only [again]

theorem number_stops (left : List Char) (taken : digits = (digits ++ left).takeWhile Char.isDigit)
    (undollared : ∀ body, (digits ++ left).dropWhile isTagChar ≠ '$' :: body)
    (unglued : ((digits ++ left).dropWhile Char.isDigit).head?.any (fun c => c.isAlpha || c =
      '_') = false) :
    (∀ c ∈ digits, c.isDigit = true) ∧ left.head?.any isIdentChar = false := by
  obtain ⟨all, undigit⟩ := takeWhile_exact digits left taken.symm
  have dropped := (takeWhile_all digits left all undigit).2
  rw [dropped] at unglued
  have untagged := head_not_tag left undigit unglued
  have tagged := takeWhile_all digits left (fun c member => isTagChar_of_isDigit c (all c member))
    untagged
  refine ⟨all, ?_⟩
  cases left with
  | nil => rfl
  | cons c left =>
    have differs : c ≠ '$' := by
      rintro rfl
      exact undollared left tagged.2
    simp only [head?_cons, any_some] at untagged ⊢
    simp [isIdentChar, untagged, differs]

theorem nextDollar_bare_congr (left other : List Char) (starts : boundary before' = true)
    (same : SameAhead false left other)
    (undollared : ∀ body, left.dropWhile isTagChar ≠ '$' :: body)
    (unnumbered : ¬ (left.takeWhile Char.isDigit ≠ [] ∧
      ((left.dropWhile Char.isDigit).head?.any fun c => c.isAlpha || c = '_') = false ∧
      1 ≤ paramNumber (left.takeWhile Char.isDigit))) :
    nextDollar before' other = .ok (.text ['$']) := by
  obtain ⟨word, tail, tail', rfl, rfl, all, stops, heads⟩ := same
  have heads : tail.head? = tail'.head? := by
    rcases heads with heads | ⟨-, clear, -, -⟩
    · exact heads
    · cases clear
  have stops' : tail'.head?.any isTagChar = false := heads ▸ stops
  have tagged := takeWhile_all word tail all stops
  have tagged' := takeWhile_all word tail' all stops'
  have digits := takeWhile_append_stop word tail (stops_mono tail isTagChar_of_isDigit stops)
  have digits' := takeWhile_append_stop word tail' (stops_mono tail' isTagChar_of_isDigit stops')
  have after : (word.dropWhile Char.isDigit ++ tail').head? =
      (word.dropWhile Char.isDigit ++ tail).head? := by
    rw [head?_append, head?_append, heads]
  rw [digits.1, digits.2] at unnumbered
  unfold nextDollar
  rw [if_pos starts]
  rw [tagged'.2, digits'.1, digits'.2, after]
  split
  · rename_i body
    rw [tagged.2] at undollared
    cases tail with
    | nil => cases heads
    | cons c rest =>
      have dollar : c = '$' := Option.some.inj heads
      exact absurd (congrArg (· :: rest) dollar) (undollared rest)
  · rw [if_neg unnumbered]

theorem nextDollar_congr (left other : List Char) (piece : Piece)
    (read : nextDollar before (more ++ left) = .ok piece) (source : piece.source = '$' :: more)
    (same : SameAhead (boundary (more.reverse ++ '$' :: before)) left other)
    (starts : boundary before = boundary before') :
    nextDollar before' (more ++ other) = .ok piece := by
  by_cases bounded : boundary before = true
  · have bounded' : boundary before' = true := starts ▸ bounded
    unfold nextDollar at read
    rw [if_pos bounded] at read
    dsimp only at read
    split at read
    · rename_i body closes
      split at read
      · rename_i quoted found
        cases read
        exact nextDollar_quote_congr before' more left other body quoted bounded' closes
          found (List.cons.inj source).2.symm
      · cases read
    · rename_i undollared
      split at read
      · rename_i number
        cases read
        have taken := (List.cons.inj source).2.symm
        rw [← taken] at number ⊢
        obtain ⟨nonempty, unglued, positive⟩ := number
        obtain ⟨all, stops⟩ := number_stops more left taken undollared unglued
        have unclear : boundary (more.reverse ++ '$' :: before) = false :=
          boundary_of_ident more _ nonempty fun c member => isIdentChar_of_isDigit c (all c member)
        rw [unclear] at same
        have heads : left.head? = other.head? := by
          rcases same_ahead_head same with heads | ⟨clear, -, -⟩
          · exact heads
          · cases clear
        exact nextDollar_param before' more other bounded' nonempty all positive (heads ▸ stops)
      · rename_i unnumbered
        cases read
        cases (List.cons.inj source).2.symm
        exact nextDollar_bare_congr before' left other bounded' same undollared unnumbered
  · have bare : piece = .text ['$'] := by
      unfold nextDollar at read
      rw [if_neg bounded] at read
      exact (Except.ok.inj read).symm
    unfold nextDollar
    rw [if_neg (starts ▸ bounded), bare]

/-- A piece other than a bare question mark is read again when what stands around
it looks the same. -/
theorem next_congr (left other : List Char) (piece : Piece)
    (read : next before c (more ++ left) = .ok piece) (source : piece.source = c :: more)
    (unmarked : piece ≠ .mark)
    (same : SameAhead (boundary (more.reverse ++ c :: before)) left other)
    (starts : c = '$' → boundary before = boundary before')
    (escapes : c = '\x27' → opensEString before = opensEString before') :
    next before' c (more ++ other) = .ok piece := by
  unfold next at read
  split at read
  · rename_i literal
    cases read
    have body := (List.cons.inj source).2
    rw [next, if_pos literal, ← escapes literal, quotedBody_congr '\x27' _ more left other body
      (same_ahead_nil same) (same_ahead_iff same '\x27' (by decide) (by decide)).mpr]
    exact congrArg (fun body => Except.ok (Piece.text (c :: body))) body.symm
  split at read
  · rename_i literal identifier
    cases read
    have body := (List.cons.inj source).2
    rw [next, if_neg literal, if_pos identifier, quotedBody_congr '\x22' _ more left other body
      (same_ahead_nil same) (same_ahead_iff same '\x22' (by decide) (by decide)).mpr]
    exact congrArg (fun body => Except.ok (Piece.text (c :: body))) body.symm
  split at read
  · rename_i literal identifier line
    cases read
    have body : (more ++ left).takeWhile (· ≠ '\n') = more := (List.cons.inj source).2
    obtain ⟨all, stops⟩ := takeWhile_exact more left body
    have stops' : other.head?.any (fun c => decide (c ≠ '\n')) = false := by
      cases left with
      | nil => rw [same_ahead_nil same rfl]; rfl
      | cons d left =>
        have newline : d = '\n' := by simpa using stops
        rw [(same_ahead_iff same '\n' (by decide) (by decide)).mp (by rw [newline]; rfl)]
        rfl
    have opens : (more ++ other).head? = some '-' := by
      cases more with
      | nil =>
        have dash : left.head? = some '-' := line.2
        rw [dash] at stops
        exact absurd stops (by decide)
      | cons d more => exact line.2
    rw [next, if_neg literal, if_neg identifier, if_pos ⟨line.1, opens⟩,
      (takeWhile_all more other all stops').1, body]
  split at read
  · rename_i literal identifier line block
    cases read
    have shape : '*' :: blockBody (more ++ left).tail = more := (List.cons.inj source).2
    cases more with
    | nil => cases shape
    | cons d more =>
      obtain ⟨rfl, body⟩ := List.cons.inj shape
      rw [next, if_neg literal, if_neg identifier, if_neg fun dash => absurd dash.2 (by simp),
        if_pos ⟨block.1, rfl⟩]
      have again := blockBody_congr more left other body (same_ahead_nil same)
      exact congrArg (fun body => Except.ok (Piece.text (c :: '*' :: body))) (again.trans body.symm)
  split at read
  · rename_i literal identifier line block dollar
    subst dollar
    exact nextDollar_congr before before' more left other piece read source same (starts rfl)
  split at read
  · rename_i question
    subst question
    split at read
    · rename_i operator
      cases read
      cases (List.cons.inj source).2
      have operator' : other.head?.any isOperatorChar = true := by
        cases left with
        | nil => cases operator
        | cons d left =>
          have known : isOperatorChar d = true := operator
          have unquestioned : d ≠ '?' := by rintro rfl; exact absurd known (by decide)
          have undollared : d ≠ '$' := by rintro rfl; exact absurd known (by decide)
          rw [(same_ahead_iff same d unquestioned undollared).mp rfl]
          exact known
      exact if_pos operator'
    · cases read
      exact absurd rfl unmarked
  · rename_i literal identifier line block dollar question
    cases read
    cases (List.cons.inj source).2
    have line' : ¬ (c = '-' ∧ other.head? = some '-') := fun dash =>
      line ⟨dash.1, (same_ahead_iff same '-' (by decide) (by decide)).mpr dash.2⟩
    have block' : ¬ (c = '/' ∧ other.head? = some '*') := fun slash =>
      block ⟨slash.1, (same_ahead_iff same '*' (by decide) (by decide)).mpr slash.2⟩
    rw [next, if_neg literal, if_neg identifier]
    exact (if_neg line').trans ((if_neg block').trans ((if_neg dollar).trans (if_neg question)))

theorem next_tag (rest : List Char) (tag : isTagChar c = true) :
    next before c rest = .ok (.text [c]) := by
  have differs : ∀ d, isTagChar d = false → c ≠ d := by
    rintro d plain rfl
    rw [tag] at plain
    cases plain
  rw [next, if_neg (differs _ rfl), if_neg (differs _ rfl), if_neg fun both => differs _ rfl both.1,
    if_neg fun both => differs _ rfl both.1, if_neg (differs _ rfl), if_neg (differs _ rfl)]

theorem numbered_cons (unmarked : piece ≠ .mark) :
    numbered first (piece :: rest) = piece :: numbered first rest := by
  cases piece with
  | text chars => rfl
  | param digits => rfl
  | mark => exact absurd rfl unmarked

theorem render_cons (unmarked : piece ≠ .mark) :
    render first (piece :: rest) = piece.source ++ render first rest := by
  rw [render, numbered_cons first piece rest unmarked]
  exact text_cons lexer piece _

theorem render_mark :
    render first (.mark :: rest) = '$' :: (Nat.toDigits 10 first ++ render (first + 1) rest) := rfl

theorem separated_cons (unmarked : piece ≠ .mark) :
    separated afterMark before (piece :: rest) =
      separated false (piece.source.reverse ++ before) rest := by
  cases piece with
  | text chars => rfl
  | param digits => rfl
  | mark => exact absurd rfl unmarked

theorem same_ahead_of_lexes (left : List Char) (pieces : List Piece)
    (lexes : lexer.Lexes before left pieces) (apart : separated false before pieces = true) :
    SameAhead (boundary before) left (render first pieces) := by
  induction lexes with
  | nil before => exact ⟨[], [], [], rfl, rfl, nofun, rfl, .inl rfl⟩
  | cons before c more left piece pieces read source later ih =>
    have source_ : piece.source = c :: more := source
    have read_ : next before c (more ++ left) = .ok piece := read
    by_cases marked : piece = .mark
    · subst marked
      cases source_
      simp only [separated, Bool.not_false, Bool.true_and, Bool.and_eq_true] at apart
      refine ⟨[], _, _, rfl, rfl, nofun, rfl, .inr ⟨rfl, apart.1.1, rfl, rfl⟩⟩
    · rw [separated_cons false before piece pieces marked] at apart
      rw [render_cons first piece pieces marked, source_]
      by_cases tag : isTagChar c = true
      · rw [next_tag before c _ tag] at read_
        cases read_
        cases source_
        have unclear : boundary (c :: before) = false := by
          simp [boundary, isIdentChar, tag]
        obtain ⟨word, tail, tail', split, split', all, stops, heads⟩ := ih apart
        refine ⟨c :: word, tail, tail', congrArg (c :: ·) split, congrArg (c :: ·) split', ?_,
          stops, ?_⟩
        · intro d member
          rcases mem_cons.mp member with rfl | member
          · exact tag
          · exact all d member
        · rcases heads with heads | ⟨-, clear, -, -⟩
          · exact .inl heads
          · exact absurd clear (by rw [reverse_nil, nil_append, unclear]; decide)
      · refine ⟨[], _, _, rfl, rfl, nofun, ?_, .inl rfl⟩
        simpa using tag

/-- What a piece sees of the text before it, in the input and in the output. -/
structure SameBehind (afterMark : Bool) (before before' : List Char) : Prop where
  escapes : opensEString before = opensEString before'
  starts : afterMark = false → boundary before = boundary before'

theorem same_behind_piece (same : SameBehind afterMark before before')
    (clear : afterMark = true → isIdentChar c = false) :
    SameBehind false (more.reverse ++ c :: before) (more.reverse ++ c :: before') := by
  have single : opensEString (c :: before) = opensEString (c :: before') := by
    cases afterMark with
    | false => simp only [opensEString, same.starts rfl]
    | true =>
      have plain : (c = 'e' || c = 'E') = false := by
        by_contra letter
        simp only [Bool.not_eq_false, Bool.or_eq_true, decide_eq_true_eq] at letter
        have ident := clear rfl
        rcases letter with rfl | rfl
        · exact absurd ident (by decide)
        · exact absurd ident (by decide)
      simp only [opensEString, plain, Bool.false_and]
  cases reversed : more.reverse with
  | nil => exact ⟨single, fun _ => rfl⟩
  | cons d front =>
    refine ⟨?_, fun _ => rfl⟩
    cases front with
    | nil => rfl
    | cons e front => rfl

theorem paramNumber_toDigits (fits : number < usizeSpan) :
    paramNumber (Nat.toDigits 10 number) = number := by
  rw [paramNumber, Nat.ofDigitChars_ten_toDigits, if_pos fits]

theorem isDigit_toDigits : ∀ c ∈ Nat.toDigits 10 number, c.isDigit = true :=
  fun _ member => Nat.isDigit_of_mem_toDigits (by decide) (by decide) member

theorem clear_render (left : List Char) (pieces : List Piece)
    (lexes : lexer.Lexes before left pieces) (apart : separated true before pieces = true)
    (clear : clearAhead pieces = true) :
    (render first pieces).head?.any isIdentChar = false := by
  cases lexes with
  | nil => rfl
  | cons _ c more left piece pieces read source later =>
    have source_ : piece.source = c :: more := source
    by_cases marked : piece = .mark
    · subst marked
      simp [separated] at apart
    · rw [render_cons first piece pieces marked, source_]
      rw [clearAhead, text_cons, source] at clear
      simpa using clear

/-- The output is read as the pieces of the text with the marks numbered. -/
theorem relex (left : List Char) (pieces : List Piece) (lexes : lexer.Lexes before left pieces)
    (apart : separated afterMark before pieces = true) (positive : 1 ≤ first)
    (fits : first + countMarks pieces ≤ usizeSpan) (same : SameBehind afterMark before before')
    (clear : afterMark = true → clearAhead pieces = true) :
    lexer.Lexes before' (render first pieces) (numbered first pieces) := by
  induction lexes generalizing first afterMark before' with
  | nil before => exact .nil before'
  | cons before c more left piece pieces read source later ih =>
    have source_ : piece.source = c :: more := source
    have read_ : next before c (more ++ left) = .ok piece := read
    by_cases marked : piece = .mark
    · subst marked
      cases source_
      simp only [separated, Bool.and_eq_true, Bool.not_eq_true'] at apart
      obtain ⟨⟨⟨free, starts⟩, ahead⟩, apart⟩ := apart
      have room : first + 1 + countMarks pieces ≤ usizeSpan := by
        simp only [countMarks, count_cons_self] at fits
        simp only [countMarks]
        omega
      have digits := isDigit_toDigits first
      have number : paramNumber (Nat.toDigits 10 first) = first :=
        paramNumber_toDigits first (by omega)
      have inserted : next before' '$' (Nat.toDigits 10 first ++ render (first + 1) pieces) =
          .ok (.param (Nat.toDigits 10 first)) := by
        have stops := clear_render (first + 1) _ left pieces later apart ahead
        exact nextDollar_param before' _ _ (same.starts free ▸ starts) Nat.toDigits_ne_nil digits
          (number.symm ▸ positive) stops
      refine .cons before' '$' (Nat.toDigits 10 first) (render (first + 1) pieces) _ _ inserted
        rfl ?_
      refine ih (first + 1) true _ apart (by omega) room ⟨?_, nofun⟩ fun _ => ahead
      have plain : opensEString ((Nat.toDigits 10 first).reverse ++ '$' :: before') = false := by
        obtain ⟨last, front, reversed⟩ := exists_cons_of_ne_nil
          (reverse_eq_nil_iff.not.mpr (Nat.toDigits_ne_nil (n := first) (b := 10)))
        have digit : last.isDigit = true := by
          apply digits
          rw [← mem_reverse, reversed]
          exact mem_cons_self
        rw [reversed, cons_append, opensEString]
        have lower : last ≠ 'e' := by rintro rfl; exact absurd digit (by decide)
        have upper : last ≠ 'E' := by rintro rfl; exact absurd digit (by decide)
        simp [lower, upper]
      exact plain.symm
    · have clear_ : afterMark = true → isIdentChar c = false := by
        intro after
        have ahead := clear after
        rw [clearAhead, text_cons, source] at ahead
        simpa using ahead
      rw [separated_cons afterMark before piece pieces marked, source_] at apart
      have shape : (c :: more).reverse ++ before = more.reverse ++ c :: before := by
        rw [reverse_cons, append_assoc, singleton_append]
      rw [shape] at apart
      have room : first + countMarks pieces ≤ usizeSpan := by
        simp only [countMarks, count_cons_of_ne marked] at fits
        exact fits
      have ahead := same_ahead_of_lexes first _ left pieces later apart
      have again : next before' c (more ++ render first pieces) = .ok piece := by
        refine next_congr before before' c more left _ piece read_ source_ marked ahead ?_
          fun _ => same.escapes
        rintro rfl
        cases afterMark with
        | false => exact same.starts rfl
        | true => exact absurd (clear_ rfl) (by decide)
      rw [numbered_cons first piece pieces marked, render_cons first piece pieces marked, source_]
      refine .cons before' c more (render first pieces) piece _ again source_ ?_
      exact ih first false _ apart positive room
        (same_behind_piece afterMark before before' c more same clear_) nofun

/-- One mark is apart from what stands around it: `before` begins with the nearest
character in front of all pieces. -/
structure Apart (afterMark : Bool) (before : List Char) (earlier later : List Piece) : Prop where
  first : earlier = [] → afterMark = false
  lone : ∀ front, earlier ≠ front ++ [.mark]
  starts : boundary ((lexer.text earlier).reverse ++ before) = true
  ahead : clearAhead later = true

theorem apart_cons :
    Apart afterMark before (piece :: earlier) later ↔
      Apart (piece = .mark) (piece.source.reverse ++ before) earlier later := by
  have shape : (lexer.text (piece :: earlier)).reverse ++ before =
      (lexer.text earlier).reverse ++ (piece.source.reverse ++ before) := by
    rw [text_cons, reverse_append, append_assoc]
    rfl
  constructor
  · intro apart
    refine ⟨?_, ?_, shape ▸ apart.starts, apart.ahead⟩
    · rintro rfl
      rw [decide_eq_false_iff_not]
      rintro rfl
      exact apart.lone [] rfl
    · rintro front rfl
      exact apart.lone (piece :: front) rfl
  · intro apart
    refine ⟨nofun, ?_, shape ▸ apart.starts, apart.ahead⟩
    intro front same
    cases front with
    | nil =>
      obtain ⟨rfl, rfl⟩ := List.cons.inj same
      exact absurd (apart.first rfl) (by decide)
    | cons other front => exact apart.lone front (List.cons.inj same).2

theorem separated_iff :
    separated afterMark before pieces = true ↔
      ∀ earlier later, pieces = earlier ++ .mark :: later →
        Apart afterMark before earlier later := by
  induction pieces generalizing afterMark before with
  | nil =>
    refine iff_of_true rfl ?_
    intro earlier later split
    simp at split
  | cons piece rest ih =>
    have behind : separated (piece = .mark) (piece.source.reverse ++ before) rest = true ↔
        ∀ earlier later, rest = earlier ++ .mark :: later →
          Apart afterMark before (piece :: earlier) later := by
      rw [ih]
      simp only [apart_cons]
    by_cases marked : piece = .mark
    · subst marked
      have unfold_ : separated afterMark before (.mark :: rest) = true ↔
          Apart afterMark before [] rest ∧
            separated (Piece.mark = .mark) (Piece.mark.source.reverse ++ before) rest = true := by
        simp only [separated, Bool.and_eq_true, Bool.not_eq_true']
        constructor
        · rintro ⟨⟨⟨free, starts⟩, ahead⟩, apart⟩
          exact ⟨⟨fun _ => free, by simp, starts, ahead⟩, apart⟩
        · rintro ⟨apart, later⟩
          exact ⟨⟨⟨apart.first rfl, apart.starts⟩, apart.ahead⟩, later⟩
      rw [unfold_, behind]
      constructor
      · rintro ⟨here, later⟩ earlier after split
        cases earlier with
        | nil =>
          cases split
          exact here
        | cons other earlier =>
          obtain ⟨rfl, tail⟩ := List.cons.inj split
          exact later earlier after tail
      · intro all
        exact ⟨all [] rest rfl, fun earlier after split =>
          all (.mark :: earlier) after (congrArg (Piece.mark :: ·) split)⟩
    · rw [separated_cons afterMark before piece rest marked, ← decide_eq_false marked, behind]
      constructor
      · intro later earlier after split
        cases earlier with
        | nil => exact absurd (List.cons.inj split).1 marked
        | cons other earlier =>
          obtain ⟨rfl, tail⟩ := List.cons.inj split
          exact later earlier after tail
      · exact fun all earlier after split =>
          all (piece :: earlier) after (congrArg (piece :: ·) split)

theorem around_param (left : List Char)
    (read : nextDollar before (digits ++ left) = .ok (.param digits)) :
    boundary before = true ∧ left.head?.any isIdentChar = false := by
  unfold nextDollar at read
  split at read
  · rename_i starts
    dsimp only at read
    split at read
    · split at read
      · cases read
      · cases read
    · rename_i undollared
      split at read
      · rename_i number
        have taken := Piece.param.inj (Except.ok.inj read)
        exact ⟨starts, (number_stops digits left taken.symm undollared number.2.1).2⟩
      · cases read
  · cases read

theorem render_append :
    render first (earlier ++ later) =
      render first earlier ++ render (first + countMarks earlier) later := by
  induction earlier generalizing first with
  | nil => rfl
  | cons piece earlier ih =>
    by_cases marked : piece = .mark
    · subst marked
      have count : first + 1 + countMarks earlier = first + countMarks (.mark :: earlier) := by
        simp only [countMarks, count_cons_self]
        omega
      rw [cons_append, render_mark, render_mark, ih, count, cons_append,
        append_assoc]
    · have count : countMarks (piece :: earlier) = countMarks earlier :=
        count_cons_of_ne marked
      rw [cons_append, render_cons _ _ _ marked, render_cons _ _ _ marked, ih, count,
        append_assoc]

theorem source_ne_nil (text : List Char) (pieces : List Piece)
    (lexes : lexer.Lexes before text pieces) : ∀ piece ∈ pieces, piece.source ≠ [] := by
  induction lexes with
  | nil => exact nofun
  | cons before c more left piece pieces read source later ih =>
    intro other member
    rcases mem_cons.mp member with rfl | member
    · have source_ : other.source = c :: more := source
      rw [source_]
      exact cons_ne_nil c more
    · exact ih other member

/-- What the output shows in front of an inserted number, and behind it. -/
theorem apart_of_around (sources : ∀ piece ∈ earlier ++ later, piece.source ≠ [])
    (starts : boundary (render first earlier).reverse = true)
    (stops : (render number later).head?.any isIdentChar = false) :
    Apart false [] earlier later := by
  have numbered_end : ∀ front, earlier ≠ front ++ [.mark] := by
    rintro front rfl
    have shape : (render first (front ++ [.mark])).reverse =
        (Nat.toDigits 10 (first + countMarks front)).reverse ++
          '$' :: (render first front).reverse := by
      rw [render_append, render_mark]
      simp [render, numbered]
    rw [shape, boundary_of_ident _ _ Nat.toDigits_ne_nil fun c member =>
      isIdentChar_of_isDigit c (isDigit_toDigits _ c member)] at starts
    cases starts
  refine ⟨fun _ => rfl, numbered_end, ?_, ?_⟩
  · rcases eq_nil_or_concat earlier with rfl | ⟨front, last, shape⟩
    · rfl
    · rw [concat_eq_append] at shape
      subst shape
      have unmarked : last ≠ .mark := by
        rintro rfl
        exact numbered_end front rfl
      have nonempty : last.source ≠ [] := sources last (by simp)
      obtain ⟨c, rest, reversed⟩ :=
        exists_cons_of_ne_nil (reverse_eq_nil_iff.not.mpr nonempty)
      have shown : (render first (front ++ [last])).reverse =
          c :: (rest ++ (render first front).reverse) := by
        rw [render_append, render_cons _ _ _ unmarked, reverse_append, reverse_append,
          reversed]
        simp [render, numbered]
      have here : (lexer.text (front ++ [last])).reverse ++ [] =
          c :: (rest ++ (lexer.text front).reverse) := by
        have last_ : lexer.source last = last.source := rfl
        rw [text_append, text_cons, text_nil, append_nil, append_nil,
          reverse_append, last_, reversed, cons_append]
      rw [shown] at starts
      rw [here]
      exact starts
  · cases later with
    | nil => rfl
    | cons piece later =>
      by_cases marked : piece = .mark
      · subst marked
        rw [render_mark] at stops
        simp [isIdentChar] at stops
      · obtain ⟨c, more, source⟩ :=
          exists_cons_of_ne_nil (sources piece (by simp))
        have source_ : lexer.source piece = c :: more := source
        rw [render_cons number piece later marked, source] at stops
        rw [clearAhead, text_cons, source_]
        simpa using stops

theorem separated_of_recognised (outs : List Piece) (lexes : lexer.Lexes [] sql pieces)
    (out : lexer.Lexes [] (render first pieces) outs) (recognised : Recognised first pieces outs) :
    separated false [] pieces = true := by
  rw [separated_iff]
  intro earlier later split
  obtain ⟨front, back, outs_, shown⟩ := recognised earlier later split
  subst outs_
  have whole := text_of_lexes lexer [] _ _ out
  have read := lexes_append lexer [] _ front _ out
  generalize digits_ : Nat.toDigits 10 (first + countMarks earlier) = digits at *
  have behind : lexer.text back = render (first + countMarks earlier + 1) later := by
    rw [split, render_append, render_mark, text_append, shown, digits_] at whole
    exact append_cancel_left (List.cons.inj (append_cancel_left whole)).2
  generalize lexer.text (.param digits :: back) = text at read
  cases read with
  | cons _ c more left _ _ read source later_ =>
    obtain ⟨rfl, rfl⟩ := List.cons.inj source
    have dollar : nextDollar (lexer.text front).reverse (digits ++ left) = .ok (.param digits) := by
      rw [← append_nil (lexer.text front).reverse]
      exact read
    obtain ⟨starts, stops⟩ := around_param _ digits left dollar
    rw [shown] at starts
    apply apart_of_around first (first + countMarks earlier + 1) earlier later ?_ starts ?_
    · intro piece member
      apply source_ne_nil [] sql pieces lexes
      rw [split]
      rcases mem_append.mp member with front | back
      · exact mem_append_left _ front
      · exact mem_append_right _ (mem_cons_of_mem _ back)
    · rw [← behind]
      have left_ : left = lexer.text back := (text_of_lexes lexer _ _ _ later_).symm
      rw [← left_]
      exact stops

theorem rewrite_mark (fits : first < usizeSpan) :
    rewrite first (.mark :: rest) = '$' :: (Nat.toDigits 10 first ++ rewrite (first + 1) rest) := by
  rw [rewrite, Nat.mod_eq_of_lt fits]

theorem rewrite_cons (unmarked : piece ≠ .mark) :
    rewrite first (piece :: rest) = piece.source ++ rewrite first rest := by
  cases piece with
  | text chars => rfl
  | param digits => rfl
  | mark => exact absurd rfl unmarked

theorem rewrite_eq_render (fits : first + countMarks pieces ≤ usizeSpan) :
    rewrite first pieces = render first pieces := by
  induction pieces generalizing first with
  | nil => rfl
  | cons piece rest ih =>
    by_cases marked : piece = .mark
    · subst marked
      simp only [countMarks, count_cons_self] at fits
      rw [rewrite_mark first rest (by omega), render_mark, ih (first + 1)]
      simp only [countMarks]
      omega
    · simp only [countMarks, count_cons_of_ne marked] at fits
      rw [rewrite_cons first piece rest marked, render_cons first piece rest marked, ih first fits]

theorem countMarks_numbered :
    countMarks (numbered first pieces) = 0 := by
  induction pieces generalizing first with
  | nil => rfl
  | cons piece rest ih =>
    by_cases marked : piece = .mark
    · subst marked
      have parameter : Piece.param (Nat.toDigits 10 first) ≠ .mark := nofun
      exact (count_cons_of_ne parameter).trans (ih (first + 1))
    · rw [numbered_cons first piece rest marked]
      exact (count_cons_of_ne marked).trans (ih first)

theorem maxParam_numbered (positive : 1 ≤ first) (fits : first + countMarks pieces ≤ usizeSpan) :
    maxParam (numbered first pieces) =
      max (maxParam pieces)
        (if countMarks pieces = 0 then 0 else first + countMarks pieces - 1) := by
  induction pieces generalizing first with
  | nil => rfl
  | cons piece rest ih =>
    cases piece with
    | mark =>
      have count : countMarks (.mark :: rest) = countMarks rest + 1 := count_cons_self
      have later := ih (first + 1) (by omega) (by omega)
      have number := paramNumber_toDigits first (by omega)
      have unnumbered : maxParam (.mark :: rest) = maxParam rest := rfl
      rw [numbered, maxParam, later, count, if_neg (Nat.succ_ne_zero _)]
      split <;> omega
    | text chars => exact ih first positive fits
    | param digits =>
      have parameter : Piece.param digits ≠ .mark := nofun
      have count : countMarks (.param digits :: rest) = countMarks rest :=
        count_cons_of_ne parameter
      have later := ih first positive (by omega)
      rw [numbered_cons first _ rest parameter, maxParam, later, maxParam, count, max_assoc]

theorem normalize_unmarked (scanned : lexer.pieces sql = .ok pieces)
    (unmarked : countMarks pieces = 0) :
    normalizePlaceholders sql = .ok (sql, maxParam pieces) := by
  rw [normalizePlaceholders, scanned]
  exact if_pos unmarked

theorem render_unmarked (unmarked : countMarks pieces = 0) :
    render first pieces = lexer.text pieces := by
  induction pieces with
  | nil => rfl
  | cons piece rest ih =>
    by_cases marked : piece = .mark
    · subst marked
      simp [countMarks] at unmarked
    · rw [countMarks, count_cons_of_ne marked] at unmarked
      rw [render_cons first piece rest marked, ih unmarked]
      rfl

theorem normalize_scanned (scanned : lexer.pieces sql = .ok pieces)
    (fits : maxParam pieces + countMarks pieces < usizeSpan) :
    normalizePlaceholders sql =
      .ok (render (maxParam pieces + 1) pieces, maxParam pieces + countMarks pieces) := by
  by_cases unmarked : countMarks pieces = 0
  · have covered := text_of_lexes lexer [] sql pieces ((pieces_iff lexer sql pieces).mp scanned)
    rw [normalize_unmarked sql pieces scanned unmarked, render_unmarked _ pieces unmarked, covered,
      unmarked, Nat.add_zero]
  · rw [normalizePlaceholders, scanned]
    simp only [if_neg unmarked]
    rw [rewrite_eq_render _ pieces (by omega), Nat.mod_eq_of_lt fits]

theorem recognised_numbered :
    Recognised first pieces (numbered first pieces) := by
  intro earlier later split
  subst split
  induction earlier generalizing first with
  | nil => exact ⟨[], numbered (first + 1) later, rfl, rfl⟩
  | cons piece earlier ih =>
    by_cases marked : piece = .mark
    · subst marked
      obtain ⟨front, back, outs, shown⟩ := ih (first + 1)
      have count : first + 1 + countMarks earlier = first + countMarks (.mark :: earlier) := by
        simp only [countMarks, count_cons_self]
        omega
      refine ⟨.param (Nat.toDigits 10 first) :: front, back, ?_, ?_⟩
      · rw [← count, cons_append, cons_append, ← outs]
        rfl
      · rw [text_cons, shown]
        rfl
    · obtain ⟨front, back, outs, shown⟩ := ih first
      have count : countMarks (piece :: earlier) = countMarks earlier :=
        count_cons_of_ne marked
      refine ⟨piece :: front, back, ?_, ?_⟩
      · rw [count, cons_append, cons_append, ← outs, numbered_cons first piece _ marked]
      · rw [render_cons first piece earlier marked, text_cons, shown]
        rfl

theorem sound_of_separated (scanned : lexer.pieces sql = .ok pieces)
    (apart : separated false [] pieces = true)
    (fits : maxParam pieces + countMarks pieces < usizeSpan) :
    Sound sql (render (maxParam pieces + 1) pieces) (maxParam pieces + countMarks pieces) pieces
      (numbered (maxParam pieces + 1) pieces) := by
  have lexes := (pieces_iff lexer sql pieces).mp scanned
  have again : lexer.pieces (render (maxParam pieces + 1) pieces) =
      .ok (numbered (maxParam pieces + 1) pieces) := by
    rw [pieces_iff]
    exact relex _ false [] [] sql pieces lexes apart (by omega) (by omega) ⟨rfl, fun _ => rfl⟩ nofun
  have largest : maxParam pieces + countMarks pieces =
      maxParam (numbered (maxParam pieces + 1) pieces) := by
    rw [maxParam_numbered _ pieces (by omega) (by omega)]
    split <;> omega
  refine ⟨scanned, again, rfl, fits, recognised_numbered _ pieces, largest, ?_⟩
  rw [normalize_unmarked _ _ again (countMarks_numbered _ pieces), ← largest]

/-- The rewriting keeps its promises exactly when no bare question mark touches an
identifier character or another bare question mark, and the numbers fit the machine
word. -/
theorem sound_iff (sql : List Char) :
    (∀ out count, normalizePlaceholders sql = .ok (out, count) →
        ∃ pieces outs, Sound sql out count pieces outs) ↔
      ∀ pieces, lexer.pieces sql = .ok pieces →
        separated false [] pieces = true ∧ maxParam pieces + countMarks pieces < usizeSpan := by
  constructor
  · intro sound pieces scanned
    have ran : ∃ out count, normalizePlaceholders sql = .ok (out, count) := by
      rw [normalizePlaceholders, scanned]
      by_cases unmarked : countMarks pieces = 0
      · exact ⟨_, _, if_pos unmarked⟩
      · exact ⟨_, _, if_neg unmarked⟩
    obtain ⟨out, count, ran⟩ := ran
    obtain ⟨pieces', outs, sound⟩ := sound out count ran
    cases scanned.symm.trans sound.scanned
    refine ⟨?_, sound.fits⟩
    have lexes := (pieces_iff lexer sql pieces).mp scanned
    have again := (pieces_iff lexer out outs).mp sound.rescanned
    rw [sound.rewritten] at again
    exact separated_of_recognised _ sql pieces outs lexes again sound.recognised
  · intro condition out count ran
    cases scanned : lexer.pieces sql with
    | error error =>
      rw [normalizePlaceholders, scanned] at ran
      cases ran
    | ok pieces =>
      obtain ⟨apart, fits⟩ := condition pieces scanned
      rw [normalize_scanned sql pieces scanned fits] at ran
      cases ran
      exact ⟨pieces, _, sound_of_separated sql pieces scanned apart fits⟩

/-- Two question marks in a row become `$1$2`, which a second run takes for the
beginning of a dollar quote. -/
theorem rewriting_not_sound :
    ¬ ∀ sql out count, normalizePlaceholders sql = .ok (out, count) →
      ∃ pieces outs, Sound sql out count pieces outs := by
  intro sound
  have ran : normalizePlaceholders "select ??".toList = .ok ("select $1$2".toList, 2) := by
    decide +kernel
  obtain ⟨pieces, outs, sound⟩ := sound _ _ _ ran
  have again : normalizePlaceholders "select $1$2".toList =
      .error "unterminated dollar-quoted string" := by
    decide +kernel
  cases again.symm.trans sound.stable

end OnlyJs.Bridge.Placeholder
