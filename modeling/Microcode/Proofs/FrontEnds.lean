import Microcode.Proofs.Lockstep

/-!
The two ways to hand in a program. A stream file ends its microcode line at the end of each line of
text; a producer that makes one call for each word ends a line only when the next one begins. So
between any two lines the producer is one commit short of the reader, and `Behind` is kept between
the reader and the producer's builder with that commit made. Only an immediate value that is not a
number makes a difference: the producer meets the error of the number before it makes its call,
while the reader reports the word.
-/
namespace Microcode

namespace Builder

/-- Reads the number of an immediate value and hands it in. -/
def driveValue (b : Builder) (stem text : String) : Outcome Unit :=
  match Numeral.read text with
  | .error e => b.done (.error e)
  | .ok n => b.assignValue stem (.value (.int n))

/-- Hands in one word; `newline` ends the line before it. -/
def driveWord (b : Builder) (newline : Bool) (word : String) : Outcome Unit :=
  match cutAtEquals word with
  | none => b.entry newline word
  | some (stem, text) =>
    if newline then b.endLine.andThen fun _ after => after.driveValue stem text
    else b.driveValue stem text

def driveWords (b : Builder) (newline : Bool) : List String → Outcome Unit
  | [] => b.done (.ok ())
  | word :: rest =>
    (b.driveWord newline word).andThen fun _ after => after.driveWords false rest

/-- Hands in one line of text, its first word with a new line. A line that holds nothing but a
comment is passed over. -/
def driveLine (b : Builder) (raw : String) : Outcome Unit :=
  let line := Text.stripComment raw
  if line = "" then b.done (.ok ()) else b.driveWords true (Text.wordsOf line)

def driveLines (b : Builder) : List String → Outcome Unit
  | [] => b.done (.ok ())
  | raw :: rest => (b.driveLine raw).andThen fun _ after => after.driveLines rest

end Builder

def driveStream [Machine] (layout : Layout) (symbols : SymbolTable) (debug : Bool)
    (texts : List String) : Outcome Image :=
  ((Builder.fresh (some layout) symbols debug).driveLines texts).andThen fun _ b => b.finalize

def Error.unsourced : Error → Error
  | .fault f => .fault { f with sourceLine := none }
  | e => e

/-- What the reader and the producer meet in a text whose line `k` has a word with an immediate
value that is not a number: the reader a fault that tells of the word, and the producer the error of
the number. -/
structure Misread (texts : List String) (k index : Nat) (stem text : String) (e e' : Error) : Prop
    where
  written : ∃ raw, texts[k]? = some raw ∧
    stem ++ "=" ++ text ∈ Text.wordsOf (Text.stripComment raw)
  first : '=' ∉ stem.toList
  refused : Numeral.read text = .error e'
  malformed : e'.isBadNumeral = true
  told : e = .fault ⟨.invalidImmediate (stem ++ "=" ++ text) stem, some (.int index),
    some (.int (k + 1 : Nat))⟩

theorem Act.ofWord_ne_finalize (lineNumber : Nat) (word : String) :
    ofWord lineNumber word ≠ .finalize := by
  unfold ofWord ofName
  split
  · split <;> simp
  · split
    · simp
    · split <;> simp

/-! The producer's words are the reader's words, after the commit of the line before. -/

namespace Builder

variable {layout : Layout} {b c : Builder}

/-- The reader reports one of the words, where the producer meets an error of its own. -/
inductive Stumbles (lineNumber limit : Nat) (words : List String) (read driven : Outcome Unit) :
    Prop where
  | stop {word stem text : String} {index : Nat} {e : Error} (member : word ∈ words)
      (cut : cutAtEquals word = some (stem, text)) (refused : Numeral.read text = .error e)
      (malformed : e.isBadNumeral = true) (small : index ≤ limit)
      (told : read.result = .error (Fault.report
        ⟨.invalidImmediate word stem, some (.int index), some (.int lineNumber)⟩))
      (met : driven.result = .error e)

theorem Stumbles.mono {lineNumber limit limit' : Nat} {words words' : List String}
    {read driven read' driven' : Outcome Unit}
    (stumbles : Stumbles lineNumber limit words read driven) (among : words ⊆ words')
    (limits : limit ≤ limit')
    (reads : ∀ e, read.result = .error e → read'.result = .error e)
    (drives : ∀ e, driven.result = .error e → driven'.result = .error e) :
    Stumbles lineNumber limit' words' read' driven' := by
  cases stumbles with
  | stop member cut refused malformed small told met =>
    exact .stop (among member) cut refused malformed (Nat.le_trans small limits)
      (reads _ told) (drives _ met)

theorem driveWord_later (b : Builder) (lineNumber : Nat) (word : String) :
    b.driveWord false word = b.readWord lineNumber word ∨
      Stumbles lineNumber b.lines.length [word] (b.readWord lineNumber word)
        (b.driveWord false word) := by
  unfold driveWord readWord
  cases cut : cutAtEquals word with
  | none => exact .inl rfl
  | some pair =>
    obtain ⟨stem, text⟩ := pair
    dsimp only
    unfold driveValue immediate
    cases refused : Numeral.read text with
    | ok n => exact .inl rfl
    | error e =>
      cases malformed : e.isBadNumeral with
      | false =>
        left
        simp [Except.mapError, malformed]
      | true =>
        right
        have here := List.mem_singleton_self word
        refine .stop here cut refused malformed (Nat.le_refl b.lines.length) ?_ rfl
        simp [Except.mapError, malformed, done]

theorem driveWord_first (given : b.layout = some layout) (word : String) :
    b.driveWord true word = b.endLine.andThen fun _ after => after.driveWord false word := by
  have given' : b.endLine.builder.layout = some layout := act_layout given .endLine
  unfold driveWord
  cases cut : cutAtEquals word with
  | some pair => rfl
  | none =>
    simp only [entry, needLayout_some given, ↓reduceIte]
    apply Outcome.andThen_congr
    intro u
    simp only [needLayout_some given']
    rfl

theorem readWord_length (given : b.layout = some layout) (lineNumber : Nat) (word : String) :
    (b.readWord lineNumber word).builder.lines.length ≤ b.lines.length := by
  have frame := (act_frame b (.ofWord lineNumber word)).1
  rw [(Act.ofWord_within (fun _ => True) lineNumber word).2] at frame
  rw [readWord_eq_act given]
  exact frame

theorem driveWords_later (given : b.layout = some layout) (lineNumber : Nat)
    (words : List String) :
    b.driveWords false words = b.readWords lineNumber words ∨
      Stumbles lineNumber b.lines.length words (b.readWords lineNumber words)
        (b.driveWords false words) := by
  induction words generalizing b with
  | nil => exact .inl rfl
  | cons word rest ih =>
    rw [driveWords, readWords]
    rcases driveWord_later b lineNumber word with same | stumbles
    · rw [same]
      cases done : (b.readWord lineNumber word).result with
      | error e =>
        left
        simp only [Outcome.andThen, done]
      | ok u =>
        have given' : (b.readWord lineNumber word).builder.layout = some layout := by
          rw [readWord_eq_act given]
          exact act_layout given _
        rcases ih given' with later | stumbles
        · exact .inl (Outcome.andThen_congr _ fun _ => later)
        · exact .inr (stumbles.mono (List.subset_cons_self word rest)
            (readWord_length given lineNumber word)
            (fun _ failed => (Outcome.andThen_ok done _).1.trans failed)
            (fun _ failed => (Outcome.andThen_ok done _).1.trans failed))
    · exact .inr (stumbles.mono (List.cons_subset_cons word (List.nil_subset rest)) (Nat.le_refl _)
        (fun _ failed => (Outcome.andThen_error failed _).1)
        (fun _ failed => (Outcome.andThen_error failed _).1))

theorem driveWords_first (given : b.layout = some layout) (word : String) (rest : List String) :
    b.driveWords true (word :: rest) =
      b.endLine.andThen fun _ after => after.driveWords false (word :: rest) := by
  simp only [driveWords, driveWord_first given, Outcome.andThen_assoc]

theorem act_resolved [Machine] (b : Builder) {a : Act} (other : a ≠ .finalize) :
    (b.act a).builder.resolved = b.resolved := by
  cases a with
  | declare label =>
    simp only [act, declareLabel]
    split <;> rfl
  | branch label =>
    simp only [act]
    cases check : b.checkReference label with
    | error e =>
      simp only [referenceLabel, check]
      rfl
    | ok u =>
      rw [(referenceLabel_ok check).2]
      rfl
  | assign name =>
    simp only [act, assign]
    split
    · rfl
    · rw [store_builder]
      rfl
  | value stem datum =>
    simp only [act, assignValue]
    split
    · rfl
    · rw [store_builder]
      rfl
  | endLine =>
    simp only [act, endLine, committed, done]
    split
    · rfl
    · dsimp only
      split <;> rfl
  | finalize => exact absurd rfl other
  | define name value =>
    simp only [act, defineValue]
    split <;> rfl
  | _ => rfl

theorem readWords_resolved (given : b.layout = some layout) (lineNumber : Nat)
    (words : List String) : (b.readWords lineNumber words).builder.resolved = b.resolved := by
  induction words generalizing b with
  | nil => rfl
  | cons word rest ih =>
    have step : (b.readWord lineNumber word).builder.resolved = b.resolved := by
      rw [readWord_eq_act given]
      exact b.act_resolved (Act.ofWord_ne_finalize lineNumber word)
    cases result : (b.readWord lineNumber word).result with
    | error e =>
      rw [readWords, (Outcome.andThen_error result _).2]
      exact step
    | ok u =>
      rw [readWords, (Outcome.andThen_ok result _).2, ← step]
      apply ih
      rw [readWord_eq_act given]
      exact act_layout given _

end Builder

/-! Source lines. The producer has none, and those of the reader can be printed if `P` holds. -/

def Unplaced (P : Prop) (s s' : Option Value) : Prop :=
  s' = none ∧ (P → ∀ v, s = some v → ∀ n ∈ v.numbers, Numeral.fits n = true)

theorem unplaced_nowhere (P : Prop) : Unplaced P none none :=
  ⟨rfl, fun _ v impossible => by cases impossible⟩

def sourceFits (s : Option Value) : Bool := (s.toList.flatMap Value.numbers).all Numeral.fits

/-- Faults that differ in their source lines are both told, or neither is. -/
theorem Error.Matches.unsourced_of_fits {T : Option Value → Option Value → Prop} {e e' : Error}
    (alike : e.Matches T e') (fits : ∀ s s', T s s' → sourceFits s = sourceFits s') :
    e.unsourced = e'.unsourced := by
  cases alike with
  | same e => rfl
  | @report s s' cause index source =>
    have numbers : ∀ s, (Fault.numbers ⟨cause, index, s⟩).all Numeral.fits =
        (sourceFits index && sourceFits s && cause.numbers.all Numeral.fits) := by
      intro s
      simp only [Fault.numbers, List.flatMap_append, List.all_append, sourceFits]
    unfold Fault.report
    rw [numbers, numbers, fits s s' source]
    split <;> rfl

theorem Error.Matches.unsourced {P : Prop} {e e' : Error} (alike : e.Matches (Unplaced P) e')
    (short : P) : e.unsourced = e'.unsourced := by
  apply alike.unsourced_of_fits
  rintro s _ ⟨rfl, printable⟩
  apply List.all_eq_true.mpr
  intro n member
  obtain ⟨v, held, here⟩ := List.mem_flatMap.mp member
  exact printable short v (Option.mem_toList.mp held) n here

/-- A fault that has a source line is met by both if only one of them may have one. -/
theorem Error.Matches.sourced {P : Prop} {e e' : Error} (alike : e.Matches (Unplaced P) e')
    {f : Fault} (told : e' = .fault f) (sourced : f.sourceLine ≠ none) : e = .fault f := by
  cases alike with
  | same => exact told
  | report cause index source =>
    obtain ⟨rfl, _⟩ := source
    unfold Fault.report at told
    split at told
    · cases told
      exact absurd rfl sourced
    · cases told

/-! Line by line. -/

theorem committed_twice (b : Builder) : b.committed.committed = b.committed := by
  have empty := Builder.committed_current b
  rw [Builder.committed, if_pos (List.isEmpty_iff.mpr empty)]

theorem committed_open (b : Builder) :
    b.committed.layout = b.layout ∧ b.committed.resolved = b.resolved := by
  unfold Builder.committed
  split <;> exact ⟨rfl, rfl⟩

section

variable {layout : Layout} {P : Prop} {b c : Builder}

theorem readWords_behind (behind : b.Behind (Unplaced P) c) (lineNumber : Nat)
    (words : List String) :
    (b.readWords lineNumber words).Matches (Unplaced P) (c.readWords lineNumber words) :=
  (Outcome.Matches.parallel (unplaced_nowhere P)).readWords behind (fun _ _ => .same _) words

/-- The words of a line of text, handed in on the line that the producer commits first. -/
theorem driveWords_committed (given : c.layout = some layout) (unresolved : c.resolved = false)
    (lineNumber : Nat) (words : List String) :
    ((c.driveWords true words).result = (c.committed.readWords lineNumber words).result ∧
      (c.driveWords true words).builder.committed =
        (c.committed.readWords lineNumber words).builder.committed ∧
      (c.driveWords true words).builder.resolved = false) ∨
    Builder.Stumbles lineNumber c.committed.lines.length words
      (c.committed.readWords lineNumber words) (c.driveWords true words) := by
  cases words with
  | nil => exact .inl ⟨rfl, (committed_twice c).symm, unresolved⟩
  | cons word rest =>
    obtain ⟨layouts, states⟩ := committed_open c
    have given' := layouts.trans given
    have words := Builder.readWords_resolved given' lineNumber (word :: rest)
    rw [Builder.driveWords_first given, endLine_open given unresolved]
    have first : (c.committed.done (.ok ()) : Outcome Unit).result = .ok () := rfl
    obtain ⟨result, builder⟩ := Outcome.andThen_ok first
      fun _ after => after.driveWords false (word :: rest)
    rcases Builder.driveWords_later given' lineNumber (word :: rest) with same | stumbles
    · left
      rw [result, builder]
      dsimp only [Builder.done]
      rw [same]
      exact ⟨rfl, rfl, words.trans (states.trans unresolved)⟩
    · exact .inr (stumbles.mono (List.Subset.refl _) (Nat.le_refl _) (fun _ failed => failed)
        (fun _ failed => result.trans failed))

/-- Results of the reader and of the producer for some of the lines of a text: the same, or those of
a word that is misread. -/
inductive Agree (P : Prop) (lineNumber : Nat) (texts : List String) :
    Except Error Unit → Except Error Unit → Prop where
  | same {r r' : Except Error Unit} (same : Same (Unplaced P) r r') : Agree P lineNumber texts r r'
  | misread {k n index : Nat} {raw word stem text : String} {e e' : Error}
      (place : n = lineNumber + k) (written : texts[k]? = some raw)
      (said : word ∈ Text.wordsOf (Text.stripComment raw))
      (cut : cutAtEquals word = some (stem, text)) (refused : Numeral.read text = .error e')
      (malformed : e'.isBadNumeral = true) (small : index < n)
      (told : e.Matches (Unplaced P)
        (Fault.report ⟨.invalidImmediate word stem, some (.int index), some (.int n)⟩)) :
      Agree P lineNumber texts (.error e) (.error e')

namespace Agree

variable {lineNumber : Nat} {texts : List String} {r r' : Except Error Unit}

theorem of_ok (agree : Agree P lineNumber texts (.ok ()) r') : r' = .ok () := by
  cases agree with
  | same same => exact same.of_ok

theorem more (agree : Agree P lineNumber texts r r') (later : List String) :
    Agree P lineNumber (texts ++ later) r r' := by
  cases agree with
  | same same => exact .same same
  | misread place written said cut refused malformed small told =>
    have inside := (List.getElem?_eq_some_iff.mp written).1
    exact .misread place ((List.getElem?_append_left inside).trans written) said cut refused
      malformed small told

theorem after (agree : Agree P (lineNumber + 1) texts r r') (raw : String) :
    Agree P lineNumber (raw :: texts) r r' := by
  cases agree with
  | same same => exact .same same
  | misread place written said cut refused malformed small told =>
    exact .misread (place.trans (Nat.add_right_comm _ _ _)) (List.getElem?_cons_succ.trans written)
      said cut refused malformed small told

end Agree

theorem words_behind (behind : b.Behind (Unplaced P) c.committed) (given : b.layout = some layout)
    (unresolved : c.resolved = false) {lineNumber : Nat} (early : b.lines.length < lineNumber)
    {raw : String} {words : List String} (said : Text.wordsOf (Text.stripComment raw) = words) :
    let read := (b.readWords lineNumber words).andThen fun _ after => after.endLine
    let driven := c.driveWords true words
    Agree P lineNumber [raw] read.result driven.result ∧
    (read.result = .ok () →
      read.builder.Behind (Unplaced P) driven.builder.committed ∧
        driven.builder.resolved = false) := by
  intro read driven
  obtain ⟨layouts, states⟩ := committed_open c
  have given' : c.layout = some layout := layouts.symm.trans (behind.layout.symm.trans given)
  have first := readWords_behind behind lineNumber words
  have same := first.result
  rcases driveWords_committed given' unresolved lineNumber words with
    ⟨result, committed, unresolved'⟩ | ⟨member, cut, refused, malformed, small, told, met⟩
  · rw [result, committed]
    cases done : (b.readWords lineNumber words).result with
    | error e =>
      rw [done] at same
      obtain ⟨e', failed, why⟩ := same.of_error
      have stopped : read.result = .error e := (Outcome.andThen_error done _).1
      rw [stopped, failed]
      exact ⟨.same (.error why), fun impossible => by cases impossible⟩
    | ok u =>
      rw [done] at same
      have given'' : (b.readWords lineNumber words).builder.layout = some layout := by
        rw [Builder.readWords_eq_acts given]
        exact Builder.acts_layout given _
      have opened : (b.readWords lineNumber words).builder.resolved = false :=
        (Builder.readWords_resolved given lineNumber words).trans
          (behind.resolved.trans (states.trans unresolved))
      obtain ⟨ended, after⟩ := Outcome.andThen_ok done fun _ next => next.endLine
      rw [endLine_open given'' opened] at ended after
      rw [show read.result = _ from ended, show read.builder = _ from after, same.of_ok]
      exact ⟨.same (.ok ()), fun _ => ⟨first.builder.committed (unplaced_nowhere P), unresolved'⟩⟩
  · rw [told] at same
    cases done : (b.readWords lineNumber words).result with
    | ok u =>
      rw [done] at same
      cases same
    | error e₀ =>
      rw [done] at same
      obtain ⟨e', reported, why⟩ := same.of_error
      rw [← Except.error.inj reported] at why
      have failed : read.result = .error e₀ := (Outcome.andThen_error done _).1
      have length := behind.lines.length_eq
      rw [failed, show driven.result = _ from met]
      refine ⟨.misread (Nat.add_zero lineNumber).symm List.getElem?_cons_zero (said ▸ member) cut
        refused malformed ?_ why, fun impossible => by cases impossible⟩
      omega

theorem readLine_behind {lineNumber : Nat} (behind : b.Behind (Unplaced P) c.committed)
    (given : b.layout = some layout) (unresolved : c.resolved = false)
    (early : b.lines.length < lineNumber) (short : P → Numeral.fits lineNumber = true)
    (raw : String) :
    Agree P lineNumber [raw] (b.readLine lineNumber raw).result (c.driveLine raw).result ∧
    ((b.readLine lineNumber raw).result = .ok () →
      (b.readLine lineNumber raw).builder.Behind (Unplaced P) (c.driveLine raw).builder.committed ∧
      (c.driveLine raw).builder.resolved = false) := by
  unfold Builder.readLine Builder.driveLine
  dsimp only
  split
  · exact ⟨.same (.ok ()), fun _ => ⟨behind, unresolved⟩⟩
  · have marked : { b with sourceLine := some (lineNumber : Value) }.Behind (Unplaced P)
        c.committed := by
      refine { behind with sourceLine := ⟨behind.sourceLine.1, ?_⟩ }
      rintro p v ⟨⟩ n member
      rw [List.mem_singleton.mp member]
      exact short p
    exact words_behind marked given unresolved early rfl

theorem readLine_length (given : b.layout = some layout) (lineNumber : Nat) (raw : String) :
    (b.readLine lineNumber raw).builder.lines.length ≤ b.lines.length + 1 := by
  rw [Builder.readLine_eq_acts given]
  exact Nat.le_trans (Builder.acts_length_le b _)
    (Nat.add_le_add_left (Act.ofLine_commits lineNumber raw) _)

/-- The reader and the producer stop at the same word, or they come to the end of the text with
nothing but the last commit between them. -/
theorem readFrom_behind {texts : List String} {lineNumber : Nat}
    (behind : b.Behind (Unplaced P) c.committed) (given : b.layout = some layout)
    (unresolved : c.resolved = false) (early : b.lines.length < lineNumber)
    (short : P → ∀ n : Nat, n < lineNumber + texts.length → Numeral.fits n = true) :
    Agree P lineNumber texts (b.readFrom lineNumber texts).result (c.driveLines texts).result ∧
    ((b.readFrom lineNumber texts).result = .ok () →
      (b.readFrom lineNumber texts).builder.Behind (Unplaced P)
        (c.driveLines texts).builder.committed ∧
      (c.driveLines texts).builder.resolved = false) := by
  induction texts generalizing b c lineNumber with
  | nil => exact ⟨.same (.ok ()), fun _ => ⟨behind, unresolved⟩⟩
  | cons raw rest ih =>
    rw [List.length_cons] at short
    obtain ⟨keeps, next⟩ :=
      readLine_behind behind given unresolved early (fun p => short p lineNumber (by omega)) raw
    rw [Builder.readFrom, Builder.driveLines]
    cases done : (b.readLine lineNumber raw).result with
    | error e =>
      rw [done] at keeps
      cases met : (c.driveLine raw).result with
      | ok u =>
        rw [met] at keeps
        cases keeps with
        | same same => cases same
      | error e' =>
        rw [met] at keeps
        rw [(Outcome.andThen_error done _).1, (Outcome.andThen_error met _).1]
        exact ⟨keeps.more rest, fun impossible => by cases impossible⟩
    | ok u =>
      rw [done] at keeps
      have met : (c.driveLine raw).result = .ok () := keeps.of_ok
      obtain ⟨behind', unresolved'⟩ := next done
      have given' : (b.readLine lineNumber raw).builder.layout = some layout := by
        rw [Builder.readLine_eq_acts given]
        exact Builder.acts_layout given _
      have length := readLine_length given lineNumber raw
      rw [(Outcome.andThen_ok done _).1, (Outcome.andThen_ok done _).2,
        (Outcome.andThen_ok met _).1, (Outcome.andThen_ok met _).2]
      obtain ⟨later, ends⟩ := ih behind' given' unresolved' (Nat.lt_of_le_of_lt length
        (Nat.succ_lt_succ early)) fun p n within => short p n (by omega)
      exact ⟨later.after raw, ends⟩

end

theorem finalize_committed [Machine] {layout : Layout} {b : Builder}
    (given : b.layout = some layout) (unresolved : b.resolved = false) :
    b.committed.finalize = b.finalize := by
  obtain ⟨layouts, states⟩ := committed_open b
  have check : b.checkFinalize = .ok layout :=
    (Builder.checkFinalize_ok_iff given).mpr ⟨rfl, unresolved⟩
  have check' : b.committed.checkFinalize = .ok layout :=
    (Builder.checkFinalize_ok_iff (layouts.trans given)).mpr ⟨rfl, states.trans unresolved⟩
  rw [finalize_closes check, finalize_closes check', committed_twice]

theorem lineNumber_fits (texts : List String) (short : texts.length < 10 ^ Numeral.maxDigits)
    (n : Nat) (within : n < 1 + texts.length) : Numeral.fits n = true := by
  apply fits_iff.mpr
  exact Nat.lt_of_le_of_lt (by omega : (n : Int).natAbs ≤ texts.length) short

theorem assembleStream_readFrom [Machine] (layout : Layout) (symbols : SymbolTable)
    (debug verbose : Bool) (texts : List String) :
    let first := (Builder.fresh (some layout) symbols debug).readFrom 1 texts
    let outcome := assembleStream layout symbols debug verbose texts
    (∀ e, first.result = .error e → outcome.result = .error e) ∧
    (first.result = .ok () →
      outcome.result = { first.builder with sourceLine := none }.finalize.result ∧
        outcome.builder = { first.builder with sourceLine := none }.finalize.builder) := by
  intro first outcome
  simp only [outcome, assembleStream, Builder.readStream, Outcome.andThen_assoc]
  exact ⟨fun e failed => (Outcome.andThen_error failed _).1, fun done => Outcome.andThen_ok done _⟩

theorem fresh_behind (layout : Layout) (symbols : SymbolTable) (debug : Bool) (P : Prop) :
    (Builder.fresh (some layout) symbols debug).Behind (Unplaced P)
      (Builder.fresh (some layout) symbols debug).committed :=
  ⟨rfl, rfl, rfl, rfl, rfl, .nil, ⟨rfl, rfl, rfl, unplaced_nowhere P⟩, unplaced_nowhere P⟩

/-- The error of the reader tells which word was misread, if it is another one than the
producer's. -/
theorem Agree.of_error {texts : List String} {e : Error} {r' : Except Error Unit}
    (agree : Agree (texts.length < 10 ^ Numeral.maxDigits) 1 texts (.error e) r') :
    ∃ e', r' = .error e' ∧ (texts.length < 10 ^ Numeral.maxDigits →
      e.unsourced = e'.unsourced ∨ ∃ k index stem text, Misread texts k index stem text e e') := by
  cases agree with
  | same same =>
    obtain ⟨e', failed, why⟩ := same.of_error
    exact ⟨e', failed, fun short => .inl (why.unsourced short)⟩
  | @misread k n index raw word stem text _ e' place written said cut refused malformed small
      told =>
    refine ⟨e', rfl, fun short => .inr ⟨k, index, stem, text, ?_⟩⟩
    obtain ⟨first, rfl⟩ := cutAtEquals_eq_some.mp cut
    have inside := (List.getElem?_eq_some_iff.mp written).1
    have printed : Fault.report ⟨.invalidImmediate (stem ++ "=" ++ text) stem,
        some (.int index), some (.int n)⟩ = .fault ⟨.invalidImmediate (stem ++ "=" ++ text) stem,
          some (.int index), some (.int n)⟩ := by
      apply report_of_fits
      intro m member
      rcases List.mem_cons.mp member with rfl | member
      · exact lineNumber_fits texts short index (by omega)
      · rw [List.mem_singleton.mp member]
        exact lineNumber_fits texts short n (by omega)
    rw [printed] at told
    have same : n = k + 1 := by omega
    exact ⟨⟨raw, written, said⟩, first, refused, malformed, same ▸ told.sourced rfl (by simp)⟩

theorem assembleStream_matches [Machine] {layout : Layout} {symbols : SymbolTable} {debug : Bool}
    {texts : List String} {P : Prop} {b c : Builder} (verbose : Bool)
    (read : ((Builder.fresh (some layout) symbols debug).readFrom 1 texts).result = .ok ())
    (driven : ((Builder.fresh (some layout) symbols debug).driveLines texts).result = .ok ())
    (reader : ((Builder.fresh (some layout) symbols debug).readFrom 1 texts).builder = b)
    (producer : ((Builder.fresh (some layout) symbols debug).driveLines texts).builder = c)
    (behind : b.Behind (Unplaced P) c.committed) (unresolved : c.resolved = false) :
    let read := assembleStream layout symbols debug verbose texts
    let driven := driveStream layout symbols debug texts
    Same (Unplaced P) read.result driven.result ∧
    ∀ image, read.result = .ok image → read.builder.labels = driven.builder.labels ∧
      List.Forall₂ (Line.Matches (Unplaced P)) read.builder.lines driven.builder.lines := by
  intro read' driven'
  have given : b.layout = some layout := by
    rw [← reader, Builder.readFrom_eq_acts rfl]
    exact Builder.acts_layout rfl _
  obtain ⟨result, builder⟩ :=
    (assembleStream_readFrom layout symbols debug verbose texts).2 read
  obtain ⟨result', builder'⟩ := Outcome.andThen_ok driven fun _ b => b.finalize
  rw [reader] at result builder
  rw [producer] at result' builder'
  -- the source line that the reader forgets at the end is the only thing left to change
  have whole : { b with sourceLine := none }.Behind (Unplaced P) c.committed :=
    { behind with sourceLine := ⟨behind.sourceLine.1, (unplaced_nowhere P).2⟩ }
  have given' : c.layout = some layout :=
    (committed_open c).1.symm.trans (behind.layout.symm.trans given)
  rw [← finalize_committed given' unresolved] at result' builder'
  obtain ⟨closing, lines⟩ := Outcome.Matches.finalize whole (unplaced_nowhere P)
  rw [show read'.result = _ from result, show read'.builder = _ from builder,
    show driven'.result = _ from result', show driven'.builder = _ from builder']
  exact ⟨closing.result, fun image accepted => ⟨closing.builder.labels, lines image accepted⟩⟩

end Microcode
