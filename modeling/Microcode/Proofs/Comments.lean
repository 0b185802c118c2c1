import Microcode.Text.Blank
import Mathlib.Data.List.Infix
import Mathlib.Data.List.TakeWhile

/-!
Lines of text without their comments. What is left of a line is said here without the functions that
compute it: the part before the first pair of slashes, and that part without the blanks at its ends.
A line is trimmed before it is cut as well as after it; since no blank is a slash, it comes to the
same as cutting first.
-/
namespace Microcode.Text

def slashes : List Char := ['/', '/']

def Blank (s : List Char) : Prop := ∀ c ∈ s, isBlank c = true

instance (s : List Char) : Decidable (Blank s) :=
  decidable_of_iff (s.all isBlank = true) List.all_eq_true

/-- The part of a text before its first pair of slashes, all of it if there is none. -/
inductive Uncommented : List Char → List Char → Prop where
  | whole {s : List Char} (plain : ¬ slashes <:+: s) : Uncommented s s
  /-- A slash at the end of the part would make an earlier pair. -/
  | cut {part : List Char} (first : ¬ slashes <:+: part ++ ['/']) (note : List Char) :
      Uncommented (part ++ (slashes ++ note)) part

structure Trimmed (s t : List Char) : Prop where
  between : ∃ left right, Blank left ∧ Blank right ∧ s = left ++ (t ++ right)
  first : ∀ c, t.head? = some c → isBlank c = false
  last : ∀ c, t.getLast? = some c → isBlank c = false

/-- Nothing but blanks, and perhaps a comment. -/
inductive Idle : List Char → Prop where
  | blank {s : List Char} (blank : Blank s) : Idle s
  | comment {s : List Char} (blank : Blank s) (note : List Char) : Idle (s ++ (slashes ++ note))

/-! Blanks at the ends. -/

theorem Blank.nil : Blank [] := List.forall_mem_nil _

theorem Blank.append {s t : List Char} (first : Blank s) (second : Blank t) : Blank (s ++ t) :=
  List.forall_mem_append.mpr ⟨first, second⟩

theorem Blank.plain {s : List Char} (blank : Blank s) : '/' ∉ s := by
  intro slash
  exact absurd (blank '/' slash) (by decide)

theorem dropWhile_of_first {s : List Char} (first : ∀ c, s.head? = some c → isBlank c = false) :
    s.dropWhile isBlank = s := by
  cases s with
  | nil => rfl
  | cons c rest => exact List.dropWhile_cons_of_neg (by simp [first c rfl])

theorem head_dropWhile {s : List Char} {c : Char} (head : (s.dropWhile isBlank).head? = some c) :
    isBlank c = false := by
  have stopped := List.head?_dropWhile_not isBlank s
  rw [head] at stopped
  simpa using stopped

theorem trimRight_of_last {s : List Char} (last : ∀ c, s.getLast? = some c → isBlank c = false) :
    trimRight s = s := by
  rw [trimRight, dropWhile_of_first, List.reverse_reverse]
  intro c head
  exact last c (List.head?_reverse ▸ head)

theorem trimRight_append {right : List Char} (blank : Blank right) (s : List Char) :
    trimRight (s ++ right) = trimRight s := by
  have before : ∀ c ∈ right.reverse, isBlank c = true :=
    fun c member => blank c (List.mem_reverse.mp member)
  rw [trimRight, List.reverse_append, List.dropWhile_append_of_pos before, trimRight]

theorem trimRight_split (s : List Char) : ∃ right, Blank right ∧ s = trimRight s ++ right := by
  refine ⟨(s.reverse.takeWhile isBlank).reverse, ?_, ?_⟩
  · intro c member
    exact List.mem_takeWhile_imp (List.mem_reverse.mp member)
  · rw [trimRight, ← List.reverse_append, List.takeWhile_append_dropWhile, List.reverse_reverse]

theorem trimmed_trim (s : List Char) : Trimmed s (trim s) := by
  obtain ⟨right, blank, split⟩ := trimRight_split (trimLeft s)
  refine ⟨⟨s.takeWhile isBlank, right, fun c => List.mem_takeWhile_imp, blank, ?_⟩, ?_, ?_⟩
  · rw [trim, ← split, trimLeft, List.takeWhile_append_dropWhile]
  · intro c head
    have kept : (trimLeft s).head? = some c := by
      rw [split, List.head?_append, ← trim, head]
      rfl
    exact head_dropWhile kept
  · intro c last
    rw [trim, trimRight, List.getLast?_reverse] at last
    exact head_dropWhile last

theorem Trimmed.eq {s t : List Char} (trimmed : Trimmed s t) : trim s = t := by
  obtain ⟨⟨left, right, before, after, rfl⟩, first, last⟩ := trimmed
  rw [trim, trimLeft, List.dropWhile_append_of_pos before]
  cases t with
  | nil =>
    rw [List.nil_append, List.dropWhile_eq_nil_iff.mpr after]
    rfl
  | cons c rest =>
    have begins : ∀ d, (c :: rest ++ right).head? = some d → isBlank d = false := first
    rw [dropWhile_of_first begins, trimRight_append after, trimRight_of_last last]

theorem Trimmed.again {s t : List Char} (trimmed : Trimmed s t) : Trimmed t t :=
  ⟨⟨[], [], .nil, .nil, (List.append_nil t).symm⟩, trimmed.first, trimmed.last⟩

theorem trimmed_iff {s t : List Char} : Trimmed s t ↔ trim s = t :=
  ⟨Trimmed.eq, fun same => same ▸ trimmed_trim s⟩

theorem trim_append {right : List Char} (blank : Blank right) (s : List Char) :
    trim (s ++ right) = trim s := by
  obtain ⟨⟨left, right', before, after, split⟩, first, last⟩ := trimmed_trim s
  refine Trimmed.eq ⟨⟨left, right' ++ right, before, after.append blank, ?_⟩, first, last⟩
  rw [← List.append_assoc (trim s), ← List.append_assoc left, ← split]

theorem append_trim {left : List Char} (blank : Blank left) (s : List Char) :
    trim (left ++ s) = trim s := by
  rw [trim, trimLeft, List.dropWhile_append_of_pos blank, trim, trimLeft]

/-! The first pair of slashes. -/

theorem slashes_cons {c : Char} {s : List Char}
    (apart : ∀ rest, c = '/' → s = '/' :: rest → False) : slashes <:+: c :: s ↔ slashes <:+: s := by
  rw [List.infix_cons_iff, or_iff_right]
  rintro ⟨rest, pair⟩
  cases pair
  exact apart rest rfl rfl

theorem beforeComment_start (s : List Char) : beforeComment s <+: s := by
  fun_induction beforeComment s with
  | case1 => exact ⟨_, rfl⟩
  | case2 rest => exact ⟨_, rfl⟩
  | case3 c rest apart ih => exact List.cons_prefix_cons.mpr ⟨rfl, ih⟩

theorem uncommented_beforeComment (s : List Char) : Uncommented s (beforeComment s) := by
  fun_induction beforeComment s with
  | case1 => exact .whole (by decide)
  | case2 rest => exact @Uncommented.cut [] (by decide) rest
  | case3 c rest apart ih =>
    generalize beforeComment rest = part at ih
    cases ih with
    | whole plain => exact .whole ((slashes_cons apart).not.mpr plain)
    | cut first note =>
      refine @Uncommented.cut (c :: part) ((slashes_cons ?_).not.mpr first) note
      intro later slash begins
      -- the slash after `c` is already there in the text itself
      cases part with
      | nil => exact apart ('/' :: note) slash rfl
      | cons d others =>
        cases begins
        exact apart _ slash rfl

theorem plain_of_slash {part : List Char} (first : ¬ slashes <:+: part ++ ['/']) :
    ¬ slashes <:+: part :=
  fun pair => first (pair.trans (List.prefix_append part ['/']).isInfix)

theorem Uncommented.plain {s part : List Char} (cut : Uncommented s part) :
    ¬ slashes <:+: part := by
  cases cut with
  | whole plain => exact plain
  | cut first note => exact plain_of_slash first

theorem beforeComment_cut {part : List Char} (first : ¬ slashes <:+: part ++ ['/'])
    (note : List Char) : beforeComment (part ++ (slashes ++ note)) = part := by
  induction part with
  | nil => rfl
  | cons c rest ih =>
    have apart : ∀ later, c = '/' → rest ++ (slashes ++ note) = '/' :: later → False := by
      intro later slash begins
      apply first
      subst slash
      cases rest with
      | nil => exact List.infix_rfl
      | cons d others =>
        cases begins
        exact ⟨[], others ++ ['/'], rfl⟩
    have later : ¬ slashes <:+: rest ++ ['/'] := fun pair => first (List.infix_cons pair)
    rw [List.cons_append, beforeComment.eq_3 c _ apart, ih later]

/-- A text that does not begin with a slash cannot complete a pair. -/
theorem beforeComment_append {s t : List Char} (apart : t.head? ≠ some '/') :
    beforeComment (s ++ t) = if slashes <:+: s then beforeComment s else s ++ beforeComment t := by
  fun_induction beforeComment s with
  | case1 => simp [slashes]
  | case2 rest => exact (if_pos ⟨[], rest, rfl⟩).symm
  | case3 c rest alone ih =>
    have alone' : ∀ later, c = '/' → rest ++ t = '/' :: later → False := by
      intro later slash begins
      cases rest with
      | nil =>
        rw [List.nil_append] at begins
        exact apart (begins ▸ rfl)
      | cons d others =>
        cases begins
        exact alone _ slash rfl
    rw [List.cons_append, beforeComment.eq_3 c _ alone', ih, apply_ite (List.cons c)]
    simp only [slashes_cons alone, List.cons_append]

theorem beforeComment_of_plain {s : List Char} (plain : ¬ slashes <:+: s) :
    beforeComment s = s := by
  have whole := @beforeComment_append s [] (by simp)
  rwa [List.append_nil, if_neg plain, beforeComment, List.append_nil] at whole

theorem beforeComment_plain {s : List Char} (plain : '/' ∉ s) : beforeComment s = s := by
  apply beforeComment_of_plain
  intro pair
  exact plain (pair.subset List.mem_cons_self)

theorem Uncommented.eq {s part : List Char} (cut : Uncommented s part) :
    beforeComment s = part := by
  cases cut with
  | whole plain => exact beforeComment_of_plain plain
  | cut first note => exact beforeComment_cut first note

theorem uncommented_iff {s part : List Char} : Uncommented s part ↔ beforeComment s = part :=
  ⟨Uncommented.eq, fun same => same ▸ uncommented_beforeComment s⟩

theorem Blank.beforeComment {left : List Char} (blank : Blank left) (s : List Char) :
    beforeComment (left ++ s) = left ++ beforeComment s := by
  induction left with
  | nil => rfl
  | cons c rest ih =>
    obtain ⟨here, later⟩ := List.forall_mem_cons.mp blank
    rw [List.cons_append, Text.beforeComment.eq_3, ih later, List.cons_append]
    rintro _ rfl
    cases here

theorem Blank.uncommented {s : List Char} (blank : Blank s) : Text.beforeComment s = s :=
  beforeComment_plain blank.plain

/-! Cutting and trimming. -/

/-- Nothing is left of what follows a text if it is blank up to its own comment. -/
theorem trim_beforeComment_append {t : List Char} (apart : t.head? ≠ some '/')
    (blank : Blank (beforeComment t)) (s : List Char) :
    trim (beforeComment (s ++ t)) = trim (beforeComment s) := by
  rw [beforeComment_append apart]
  split
  · rfl
  · rename_i plain
    rw [trim_append blank, beforeComment_of_plain plain]

theorem stripCommentChars_eq (s : List Char) : stripCommentChars s = trim (beforeComment s) := by
  obtain ⟨⟨left, right, before, after, split⟩, first, _⟩ := trimmed_trim s
  have apart : right.head? ≠ some '/' := fun slash => after.plain (List.mem_of_mem_head? slash)
  have visible : trimLeft (beforeComment (trim s)) = beforeComment (trim s) := by
    apply dropWhile_of_first
    intro c head
    obtain ⟨rest, whole⟩ := beforeComment_start (trim s)
    apply first c
    rw [← whole, List.head?_append, head]
    rfl
  calc stripCommentChars s
    _ = trim (beforeComment (trim s)) := (congrArg trimRight visible).symm
    _ = trim (beforeComment (trim s ++ right)) :=
      (trim_beforeComment_append apart (after.uncommented.symm ▸ after) _).symm
    _ = trim (beforeComment (left ++ (trim s ++ right))) := by
      rw [before.beforeComment, append_trim before]
    _ = trim (beforeComment s) := by rw [← split]

theorem stripComment_eq_iff {s t : String} :
    stripComment s = t ↔ ∃ part, Uncommented s.toList part ∧ Trimmed part t.toList := by
  simp only [uncommented_iff, trimmed_iff, exists_eq_left', ← stripCommentChars_eq]
  rw [stripComment, ← String.toList_inj, String.toList_ofList]

example : stripComment "\t a/ b/ /// c // d " = "a/ b/" := by decide +kernel

theorem stripComment_plain (s : String) : ¬ slashes <:+: (stripComment s).toList := by
  obtain ⟨part, cut, ⟨_, _, _, _, split⟩, _, _⟩ := stripComment_eq_iff.mp (Eq.refl (stripComment s))
  intro pair
  apply cut.plain
  rw [split]
  exact pair.trans ⟨_, _, List.append_assoc _ _ _⟩

theorem stripComment_idempotent (s : String) : stripComment (stripComment s) = stripComment s := by
  obtain ⟨part, cut, trimmed⟩ := stripComment_eq_iff.mp (Eq.refl (stripComment s))
  exact stripComment_eq_iff.mpr ⟨_, .whole (stripComment_plain s), trimmed.again⟩

theorem stripComment_append {t : String} (apart : t.toList.head? ≠ some '/')
    (blank : Blank (beforeComment t.toList)) (s : String) :
    stripComment (s ++ t) = stripComment s := by
  rw [stripComment, stripComment, String.toList_append, stripCommentChars_eq,
    trim_beforeComment_append apart blank, ← stripCommentChars_eq]

theorem stripComment_ending {ending : String} (blank : Blank ending.toList) (s : String) :
    stripComment (s ++ ending) = stripComment s := by
  apply stripComment_append
  · exact fun slash => blank.plain (List.mem_of_mem_head? slash)
  · rwa [blank.uncommented]

theorem stripComment_note (s note : String) :
    stripComment (s ++ " //" ++ note) = stripComment s := by
  have text : (" //" ++ note).toList = [' '] ++ (slashes ++ note.toList) := String.toList_append
  have blank : Blank [' '] := List.forall_mem_singleton.mpr rfl
  rw [String.append_assoc]
  apply stripComment_append
  · rw [text]
    simp
  · rw [text, blank.beforeComment]
    exact blank

theorem stripComment_idle {s : String} (idle : Idle s.toList) : stripComment s = "" := by
  have blank : Blank (beforeComment s.toList) := by
    generalize s.toList = text at idle
    cases idle with
    | blank blank => rwa [blank.uncommented]
    | @comment start blank note =>
      rw [blank.beforeComment]
      exact blank.append .nil
  have nothing : trim (beforeComment s.toList) = [] := trim_append blank []
  rw [stripComment, stripCommentChars_eq, nothing, String.ofList_nil]

end Microcode.Text
