import Choreo.Library.Search
import Choreo.Mcp.Protocol
import Choreo.Tools.Sanitize

/-!
# The placeholders of a series

A series runs tool calls one after the other. The string values in the arguments of a step may name
the outputs of earlier steps. The scanner looks for the beginning of a placeholder, takes all up to
the next closing braces for its name, and goes on behind them.

The text that a template stands for is a relation of its own: at each place, a placeholder of a
finished step is replaced by the output, and every other character stays. The scanner does not meet
it in two kinds of places. A name that is a number is written anew when its step is not finished,
and a name that is no number is taken with all its text, also where that text ends with a
placeholder of its own.
-/

namespace Choreo

open List Option

/-! ### The scanner -/

/-- The beginning of a placeholder. -/
def stepOpen : Text := "\x7b\x7bstep_".toList

/-- The end of a placeholder. -/
def stepClose : Text := "\x7d\x7d".toList

/-- A text without the plus sign at its beginning. -/
def withoutPlus : Text → Text
  | '+' :: rest => rest
  | text => text

variable (text : Text)

/-- The natural number of 64 bits that a text stands for, with or without a plus sign. -/
def parseUsize : Option ℕ :=
  let digits := withoutPlus text
  if digits ≠ [] ∧ digits.all Char.isDigit ∧ Mcp.decimal digits < 2 ^ 64 then
    some (Mcp.decimal digits)
  else none

def placeholderText (outputs : ℕ → Option Text) (name : Text) : Text :=
  match parseUsize name with
  | some idx =>
    match outputs idx with
    | some output => output
    | none => stepOpen ++ Nat.toDigits 10 idx ++ stepClose
  | none => stepOpen ++ name ++ stepClose

variable {outputs : ℕ → Option Text}

theorem placeholderText_of_none {name : Text}
    (hname : parseUsize name = none) :
    placeholderText outputs name = stepOpen ++ name ++ stepClose := by
  rw [placeholderText, hname]

theorem placeholderText_of_unfinished {name : Text} {i : ℕ}
    (hname : parseUsize name = some i) (houtput : outputs i = none) :
    placeholderText outputs name = stepOpen ++ Nat.toDigits 10 i ++ stepClose := by
  rw [placeholderText, hname]
  dsimp only
  rw [houtput]

theorem placeholderText_of_finished {name output : Text} {i : ℕ}
    (hname : parseUsize name = some i) (houtput : outputs i = some output) :
    placeholderText outputs name = output := by
  rw [placeholderText, hname]
  dsimp only
  rw [houtput]

theorem length_after_lt {text before rest inner after : Text}
    (h : Search.splitFirst stepOpen text = some (before, rest))
    (h' : Search.splitFirst stepClose rest = some (inner, after)) :
    after.length < text.length := by
  have hopen := Search.length_of_splitFirst h
  have hclose := Search.length_of_splitFirst h'
  have hlen : stepOpen.length = 7 := rfl
  omega

/-- Replaces the placeholders of a text. -/
def substituteText (outputs : ℕ → Option Text) (text : Text) : Text :=
  match _h : Search.splitFirst stepOpen text with
  | none => text
  | some (before, rest) =>
    match _h' : Search.splitFirst stepClose rest with
    | none => before ++ stepOpen ++ rest
    | some (inner, after) =>
      before ++ placeholderText outputs inner ++ substituteText outputs after
termination_by text.length
decreasing_by exact length_after_lt _h _h'

/-- The names that the scanner takes. -/
def regions (text : Text) : List Text :=
  match _h : Search.splitFirst stepOpen text with
  | none => []
  | some (_, rest) =>
    match _h' : Search.splitFirst stepClose rest with
    | none => []
    | some (inner, after) => inner :: regions after
termination_by text.length
decreasing_by exact length_after_lt _h _h'

mutual

/-- Replaces the placeholders in the string values of arguments. -/
def substituteArgs (outputs : ℕ → Option Text) : Json → Json
  | .string value => .string (String.ofList (substituteText outputs value.toList))
  | .object fields => .object (substituteFields outputs fields)
  | .array items => .array (substituteItems outputs items)
  | other => other

/-- Replaces the placeholders in the items of an array. -/
def substituteItems (outputs : ℕ → Option Text) : List Json → List Json
  | [] => []
  | item :: items => substituteArgs outputs item :: substituteItems outputs items

/-- Replaces the placeholders in the values of an object. -/
def substituteFields (outputs : ℕ → Option Text) : List (String × Json) → List (String × Json)
  | [] => []
  | (key, value) :: fields => (key, substituteArgs outputs value) :: substituteFields outputs fields

end

/-! ### What a template stands for -/

def BeginsWithStep (outputs : ℕ → Option Text) (text : Text) : Prop :=
  ∃ name i after, parseUsize name = some i ∧ (outputs i).isSome = true ∧
    text = stepOpen ++ (name ++ (stepClose ++ after))

/-- The text that a template stands for: each placeholder of a finished step is replaced by the
output, every other character stays, and what was put in is not looked at again. -/
inductive Substituted (outputs : ℕ → Option Text) : Text → Text → Prop
  | nil : Substituted outputs [] []
  | step {name output text result : Text} {i : ℕ} (hname : parseUsize name = some i)
      (houtput : outputs i = some output) (h : Substituted outputs text result) :
      Substituted outputs (stepOpen ++ (name ++ (stepClose ++ text))) (output ++ result)
  | char {c : Char} {text result : Text} (hno : ¬BeginsWithStep outputs (c :: text))
      (h : Substituted outputs text result) : Substituted outputs (c :: text) (c :: result)

/-- A name that the scanner treats well: a number whose step is finished or that is written as
numbers are, or no number and no text that ends with a placeholder of a finished step. -/
def RegionOk (finished : ℕ → Bool) (inner : Text) : Prop :=
  match parseUsize inner with
  | some i => finished i = true ∨ inner = Nat.toDigits 10 i
  | none => ∀ front name i, inner = front ++ (stepOpen ++ name) → parseUsize name = some i →
      finished i = false

/-! ### Names and braces -/

theorem mem_withoutPlus {text : Text} {c : Char} (hc : c ∈ text) :
    c = '+' ∨ c ∈ withoutPlus text := by
  rw [withoutPlus.eq_def]
  split
  · exact mem_cons.1 hc
  · exact .inr hc

theorem ne_brace_of_parseUsize {name : Text} {i : ℕ} (h : parseUsize name = some i) :
    ∀ c ∈ name, c ≠ '\x7b' ∧ c ≠ '\x7d' := by
  intro c hc
  rw [parseUsize] at h
  split_ifs at h with hdigits
  rcases mem_withoutPlus hc with rfl | hc
  · decide
  · have hdigit := List.all_eq_true.1 hdigits.2.1 c hc
    constructor <;> rintro rfl <;> exact absurd hdigit (by decide)

/-- The closing braces end a name without braces. -/
theorem name_unique {name name' after after' : Text} (hname : ∀ c ∈ name, c ≠ '\x7d')
    (hname' : ∀ c ∈ name', c ≠ '\x7d')
    (h : name ++ (stepClose ++ after) = name' ++ (stepClose ++ after')) :
    name = name' ∧ after = after' := by
  induction name generalizing name' with
  | nil =>
    rcases name' with - | ⟨c, name'⟩
    · exact ⟨rfl, append_cancel_left h⟩
    · exact absurd (cons.inj h).1.symm (hname' c mem_cons_self)
  | cons c name ih =>
    rcases name' with - | ⟨d, name'⟩
    · exact absurd (cons.inj h).1 (hname c mem_cons_self)
    · obtain ⟨rfl, htail⟩ := cons.inj h
      obtain ⟨rfl, rfl⟩ := ih (fun x hx => hname x (mem_cons_of_mem _ hx))
        (fun x hx => hname' x (mem_cons_of_mem _ hx)) htail
      exact ⟨rfl, rfl⟩

theorem ne_brace_toDigits (i : ℕ) : ∀ c ∈ Nat.toDigits 10 i, c ≠ '\x7d' := by
  rintro c hc rfl
  exact absurd (Nat.isDigit_of_mem_toDigits (by norm_num) (by norm_num) hc) (by decide)

theorem stepOpen_eq : stepOpen = ['\x7b', '\x7b', 's', 't', 'e', 'p', '_'] := rfl

theorem exists_front {x inner name : Text} (hne : x ≠ [])
    (h : stepOpen ++ inner = x ++ (stepOpen ++ name)) : ∃ front, x = stepOpen ++ front := by
  rw [stepOpen_eq] at h
  rcases x with - | ⟨c1, - | ⟨c2, - | ⟨c3, - | ⟨c4, - | ⟨c5, - | ⟨c6, - | ⟨c7, front⟩⟩⟩⟩⟩⟩⟩
  · exact absurd rfl hne
  all_goals simp at h
  refine ⟨front, ?_⟩
  obtain ⟨rfl, rfl, rfl, rfl, rfl, rfl, rfl, -⟩ := h
  rfl

/-! ### Each template stands for one text -/

variable {outputs : ℕ → Option Text}

theorem exists_substituted (outputs : ℕ → Option Text) (text : Text) :
    ∃ result, Substituted outputs text result := by
  induction hn : text.length using Nat.strong_induction_on generalizing text with
  | _ n ih =>
    by_cases hstep : BeginsWithStep outputs text
    · obtain ⟨name, i, after, hname, hfinished, rfl⟩ := hstep
      obtain ⟨output, houtput⟩ := isSome_iff_exists.1 hfinished
      have hlt : after.length < n := by
        have hlen : stepOpen.length = 7 := rfl
        simp only [length_append] at hn
        omega
      obtain ⟨result, hresult⟩ := ih _ hlt after rfl
      exact ⟨_, .step hname houtput hresult⟩
    · rcases text with - | ⟨c, text⟩
      · exact ⟨[], .nil⟩
      · have hlt : text.length < n := by
          rw [← hn, length_cons]
          omega
        obtain ⟨result, hresult⟩ := ih _ hlt text rfl
        exact ⟨_, .char hstep hresult⟩

theorem Substituted.unique {text result result' : Text} (h : Substituted outputs text result)
    (h' : Substituted outputs text result') : result = result' := by
  induction h generalizing result' with
  | nil =>
    cases h' with
    | nil => rfl
  | @step name output text result i hname houtput h ih =>
    generalize htext : stepOpen ++ (name ++ (stepClose ++ text)) = whole at h'
    cases h' with
    | nil => exact absurd htext (by simp [stepOpen_eq])
    | @step name' output' text' result' i' hname' houtput' h' =>
      have hbody := append_cancel_left htext
      obtain ⟨rfl, rfl⟩ := name_unique (fun c hc => (ne_brace_of_parseUsize hname c hc).2)
        (fun c hc => (ne_brace_of_parseUsize hname' c hc).2) hbody
      obtain rfl : i = i' := some.inj (hname.symm.trans hname')
      obtain rfl : output = output' := some.inj (houtput.symm.trans houtput')
      rw [ih h']
    | char hno h' =>
      exact absurd ⟨name, i, text, hname, isSome_iff_exists.2 ⟨output, houtput⟩,
        htext.symm⟩ hno
  | @char c text result hno h ih =>
    generalize htext : c :: text = whole at h'
    cases h' with
    | nil => cases htext
    | @step name output text' result' i hname houtput h' =>
      exact absurd ⟨name, i, text', hname, isSome_iff_exists.2 ⟨output, houtput⟩, htext⟩
        hno
    | char hno' h' =>
      obtain ⟨rfl, rfl⟩ := cons.inj htext
      rw [ih h']

/-- Without outputs a template stands for itself. -/
theorem substituted_none : Substituted (fun _ => none) text text := by
  induction text with
  | nil => exact .nil
  | cons c text ih =>
    refine .char ?_ ih
    rintro ⟨name, i, after, -, hfinished, -⟩
    exact Bool.false_ne_true hfinished

/-- Characters at which no placeholder begins stay. -/
theorem Substituted.append {front text result : Text} (h : Substituted outputs text result)
    (hno : ∀ q, q ≠ [] → q <:+ front → ¬BeginsWithStep outputs (q ++ text)) :
    Substituted outputs (front ++ text) (front ++ result) := by
  induction front with
  | nil => exact h
  | cons c front ih =>
    refine .char (hno (c :: front) (cons_ne_nil c front) suffix_rfl) (ih ?_)
    exact fun q hq hsuffix => hno q hq (hsuffix.trans (suffix_cons c front))

/-! ### The places the scanner finds -/

theorem not_beginsWithStep_before {before rest q : Text}
    (hfirst : ∀ k < before.length, ¬Search.OccursAt stepOpen (before ++ (stepOpen ++ rest)) k)
    (hne : q ≠ []) (hq : q <:+ before) : ¬BeginsWithStep outputs (q ++ (stepOpen ++ rest)) := by
  rintro ⟨name, i, after, -, -, htext⟩
  obtain ⟨front, rfl⟩ := hq
  have hlen : front.length < (front ++ q).length := by
    have hpos := length_pos_of_ne_nil hne
    rw [length_append]
    omega
  have hwhole : front ++ q ++ (stepOpen ++ rest) =
      front ++ (stepOpen ++ (name ++ (stepClose ++ after))) := by
    rw [append_assoc, htext]
  exact hfirst front.length hlen (Search.occursAt_iff.2 ⟨front, _, hwhole, rfl⟩)

theorem eq_of_beginsWithStep {inner after after' q name : Text}
    (hfirst : ∀ k < inner.length, ¬Search.OccursAt stepClose (inner ++ (stepClose ++ after)) k)
    (hname : ∀ c ∈ name, c ≠ '\x7d') (hq : q <:+ stepOpen ++ inner)
    (htext : q ++ (stepClose ++ after) = stepOpen ++ (name ++ (stepClose ++ after'))) :
    q = stepOpen ++ name := by
  have hopen : stepOpen.length = 7 := rfl
  obtain ⟨front, hfront⟩ := hq
  have hlen := congrArg List.length hfront
  rw [length_append, length_append, hopen] at hlen
  -- the closing braces of the placeholder are not before those of the region
  have hle : q.length ≤ 7 + name.length := by
    by_contra hgt
    have hwhole : stepOpen ++ (inner ++ (stepClose ++ after)) =
        (front ++ stepOpen ++ name) ++ (stepClose ++ after') := by
      rw [← append_assoc, ← hfront, append_assoc, htext]
      simp only [append_assoc]
    have hocc : Search.OccursAt stepClose (stepOpen ++ (inner ++ (stepClose ++ after)))
        (stepOpen.length + (front.length + name.length)) := by
      refine Search.occursAt_iff.2 ⟨_, _, hwhole, ?_⟩
      simp only [length_append]
      omega
    rw [Search.occursAt_append] at hocc
    exact hfirst _ (by omega) hocc
  have hge : (stepOpen ++ name).length ≤ q.length := by
    by_contra hgt
    have hmem : '\x7d' ∈ stepOpen ++ name := by
      have hget : (q ++ (stepClose ++ after))[q.length]? = some '\x7d' := by
        rw [List.getElem?_append_right le_rfl, Nat.sub_self]
        rfl
      rw [htext, ← append_assoc, List.getElem?_append_left (by omega)] at hget
      exact mem_of_getElem? hget
    rcases mem_append.1 hmem with hmem | hmem
    · exact absurd hmem (by decide)
    · exact hname _ hmem rfl
  have htext' : q ++ (stepClose ++ after) = stepOpen ++ name ++ (stepClose ++ after') := by
    rw [htext, append_assoc]
  refine (List.append_inj htext' ?_).1
  rw [length_append, hopen] at hge ⊢
  omega

theorem not_beginsWithStep_brace {text : Text} :
    ¬BeginsWithStep outputs ('\x7d' :: text) := by
  rintro ⟨name, i, after, -, -, htext⟩
  exact absurd (cons.inj htext).1 (by decide)

/-- The closing braces of a region stay. -/
theorem Substituted.close {after result : Text} (h : Substituted outputs after result) :
    Substituted outputs (stepClose ++ after) (stepClose ++ result) :=
  .char not_beginsWithStep_brace (.char not_beginsWithStep_brace h)

/-- A region in which no placeholder begins stays. -/
theorem Substituted.region {inner after result : Text} (h : Substituted outputs after result)
    (hfirst : ∀ k < inner.length, ¬Search.OccursAt stepClose (inner ++ (stepClose ++ after)) k)
    (hno : ∀ front name i, stepOpen ++ inner = front ++ (stepOpen ++ name) →
      parseUsize name = some i → outputs i = none) :
    Substituted outputs (stepOpen ++ (inner ++ (stepClose ++ after)))
      (stepOpen ++ (inner ++ (stepClose ++ result))) := by
  have hbody : Substituted outputs (stepOpen ++ inner ++ (stepClose ++ after))
      (stepOpen ++ inner ++ (stepClose ++ result)) := by
    refine h.close.append ?_
    rintro q - hq ⟨name, i, after', hname, hfinished, htext⟩
    have heq := eq_of_beginsWithStep hfirst
      (fun c hc => (ne_brace_of_parseUsize hname c hc).2) hq htext
    obtain ⟨front, hfront⟩ := hq
    rw [heq] at hfront
    rw [hno front name i hfront.symm hname] at hfinished
    exact Bool.false_ne_true hfinished
  simpa only [append_assoc] using hbody

/-- A region whose text ends with a placeholder of a finished step. -/
theorem Substituted.swallowed {front name output after result : Text} {i : ℕ}
    (h : Substituted outputs after result)
    (hfirst : ∀ k < (front ++ (stepOpen ++ name)).length,
      ¬Search.OccursAt stepClose (front ++ (stepOpen ++ name) ++ (stepClose ++ after)) k)
    (hname : parseUsize name = some i) (houtput : outputs i = some output) :
    Substituted outputs (stepOpen ++ (front ++ (stepOpen ++ name) ++ (stepClose ++ after)))
      (stepOpen ++ (front ++ (output ++ result))) := by
  have hbody : Substituted outputs
      (stepOpen ++ front ++ (stepOpen ++ (name ++ (stepClose ++ after))))
      (stepOpen ++ front ++ (output ++ result)) := by
    refine (Substituted.step hname houtput h).append ?_
    rintro q hne hq ⟨name', i', after', hname', -, htext⟩
    have hsuffix : q ++ (stepOpen ++ name) <:+ stepOpen ++ (front ++ (stepOpen ++ name)) := by
      obtain ⟨x, hx⟩ := hq
      refine ⟨x, ?_⟩
      rw [← append_assoc, hx, append_assoc]
    have htext' : q ++ (stepOpen ++ name) ++ (stepClose ++ after) =
        stepOpen ++ (name' ++ (stepClose ++ after')) := by
      rw [← htext]
      simp only [append_assoc]
    have heq := eq_of_beginsWithStep hfirst
      (fun c hc => (ne_brace_of_parseUsize hname' c hc).2) hsuffix htext'
    -- three braces stand in the text and two in the name of a placeholder
    obtain ⟨c, q, rfl⟩ := exists_cons_of_ne_nil hne
    have hcount := congrArg (List.count '\x7b') heq
    have hzero : List.count '\x7b' name' = 0 :=
      count_eq_zero.2 fun hmem => (ne_brace_of_parseUsize hname' _ hmem).1 rfl
    have hc : c = '\x7b' := (cons.inj heq).1
    have htwo : List.count '\x7b' stepOpen = 2 := by decide
    rw [count_append, count_append, count_append, hzero, htwo, hc,
      count_cons_self] at hcount
    omega
  simpa only [append_assoc] using hbody

section Equations

variable {text before rest inner after : Text}

theorem regions_of_none (h : Search.splitFirst stepOpen text = none) : regions text = [] := by
  rw [regions]
  split
  · rfl
  · rename_i h'
    rw [h] at h'
    cases h'

theorem substituteText_of_none (h : Search.splitFirst stepOpen text = none) :
    substituteText outputs text = text := by
  rw [substituteText]
  split
  · rfl
  · rename_i h'
    rw [h] at h'
    cases h'

theorem regions_of_open (h : Search.splitFirst stepOpen text = some (before, rest))
    (h' : Search.splitFirst stepClose rest = none) : regions text = [] := by
  rw [regions]
  split
  · rfl
  · rename_i hopen
    rw [h] at hopen
    cases hopen
    split
    · rfl
    · rename_i hclose
      rw [h'] at hclose
      cases hclose

theorem substituteText_of_open (h : Search.splitFirst stepOpen text = some (before, rest))
    (h' : Search.splitFirst stepClose rest = none) : substituteText outputs text = text := by
  rw [substituteText]
  split
  · rfl
  · rename_i hopen
    rw [h] at hopen
    cases hopen
    split
    · rw [append_assoc, ← (Search.splitFirst_eq_some_iff.1 h).1]
    · rename_i hclose
      rw [h'] at hclose
      cases hclose

theorem regions_of_region (h : Search.splitFirst stepOpen text = some (before, rest))
    (h' : Search.splitFirst stepClose rest = some (inner, after)) :
    regions text = inner :: regions after := by
  rw [regions]
  split
  · rename_i hopen
    rw [h] at hopen
    cases hopen
  · rename_i hopen
    rw [h] at hopen
    cases hopen
    split
    · rename_i hclose
      rw [h'] at hclose
      cases hclose
    · rename_i hclose
      rw [h'] at hclose
      cases hclose
      rfl

theorem substituteText_of_region (h : Search.splitFirst stepOpen text = some (before, rest))
    (h' : Search.splitFirst stepClose rest = some (inner, after)) :
    substituteText outputs text =
      before ++ placeholderText outputs inner ++ substituteText outputs after := by
  rw [substituteText]
  split
  · rename_i hopen
    rw [h] at hopen
    cases hopen
  · rename_i hopen
    rw [h] at hopen
    cases hopen
    split
    · rename_i hclose
      rw [h'] at hclose
      cases hclose
    · rename_i hclose
      rw [h'] at hclose
      cases hclose
      rfl

end Equations

/-- What the scanner makes of a text: nothing to replace, or the text before a region, what stands
for the region, and what it makes of the text behind it. -/
theorem substituteText_cases :
    (regions text = [] ∧ ∀ outputs, substituteText outputs text = text ∧
      Substituted outputs text text) ∨
    ∃ before inner after,
      text = before ++ (stepOpen ++ (inner ++ (stepClose ++ after))) ∧
      (∀ k < before.length, ¬Search.OccursAt stepOpen text k) ∧
      (∀ k < inner.length, ¬Search.OccursAt stepClose (inner ++ (stepClose ++ after)) k) ∧
      regions text = inner :: regions after ∧ after.length < text.length ∧
      ∀ outputs, substituteText outputs text =
        before ++ placeholderText outputs inner ++ substituteText outputs after := by
  have hstays (hno : ∀ front rest, text = front ++ (stepOpen ++ rest) →
      ∀ k, ¬Search.OccursAt stepClose rest k) (outputs : ℕ → Option Text) :
      Substituted outputs text text := by
    have h : Substituted outputs (text ++ []) (text ++ []) := by
      refine Substituted.nil.append ?_
      rintro q - ⟨front, hfront⟩ ⟨name, i, after, -, -, htext⟩
      rw [append_nil] at htext
      exact hno front _ (by rw [← hfront, htext]) name.length
        (Search.occursAt_iff.2 ⟨name, after, rfl, rfl⟩)
    simpa only [append_nil] using h
  rcases h : Search.splitFirst stepOpen text with - | ⟨before, rest⟩
  · refine .inl ⟨regions_of_none h, fun outputs => ⟨substituteText_of_none h, ?_⟩⟩
    refine hstays (fun front rest htext => ?_) outputs
    exact absurd (Search.occursAt_iff.2 ⟨front, rest, htext, rfl⟩)
      (Search.splitFirst_eq_none_iff.1 h front.length)
  · obtain ⟨htext, hbefore⟩ := Search.splitFirst_eq_some_iff.1 h
    rcases h' : Search.splitFirst stepClose rest with - | ⟨inner, after⟩
    · refine .inl ⟨regions_of_open h h', fun outputs => ⟨substituteText_of_open h h', ?_⟩⟩
      refine hstays (fun front rest' htext' => ?_) outputs
      -- the rest of any beginning is a part of the rest of the first one
      intro k hk
      have hle : before.length ≤ front.length := by
        by_contra hlt
        exact hbefore _ (Nat.lt_of_not_le hlt)
          (Search.occursAt_iff.2 ⟨front, rest', htext', rfl⟩)
      obtain ⟨n, hn⟩ := Nat.exists_eq_add_of_le hle
      have hrest' : (front ++ stepOpen) ++ rest' = (before ++ stepOpen) ++ rest := by
        rw [append_assoc, append_assoc, ← htext', htext]
      have hocc : Search.OccursAt stepClose ((before ++ stepOpen) ++ rest)
          ((front ++ stepOpen).length + k) := by
        rw [← hrest', Search.occursAt_append]
        exact hk
      have hlen : (front ++ stepOpen).length + k = (before ++ stepOpen).length + (n + k) := by
        rw [length_append, length_append, hn]
        omega
      rw [hlen, Search.occursAt_append] at hocc
      exact Search.splitFirst_eq_none_iff.1 h' _ hocc
    · obtain ⟨hrest, hinner⟩ := Search.splitFirst_eq_some_iff.1 h'
      exact .inr ⟨before, inner, after, by rw [htext, hrest], hbefore, hrest ▸ hinner,
        regions_of_region h h', length_after_lt h h',
        fun outputs => substituteText_of_region h h'⟩

/-! ### When the scanner is right -/

theorem name_eq_of_number {inner front name : Text} {i : ℕ} (hparse : parseUsize inner = some i)
    (htext : stepOpen ++ inner = front ++ (stepOpen ++ name)) : name = inner := by
  rcases front with - | ⟨c, front⟩
  · exact (append_cancel_left htext).symm
  · obtain ⟨front', hfront⟩ := exists_front (cons_ne_nil c front) htext
    rw [hfront, append_assoc] at htext
    have hsplit := append_cancel_left htext
    exact absurd rfl (ne_brace_of_parseUsize hparse '\x7b' (by simp [hsplit, stepOpen_eq])).1

variable {finished : ℕ → Bool}

theorem eq_none_of_regionOk {inner : Text} (hok : RegionOk finished inner)
    (houtputs : ∀ i, (outputs i).isSome = finished i)
    (hinner : ∀ i, parseUsize inner = some i → outputs i = none) {front name : Text} {i : ℕ}
    (htext : stepOpen ++ inner = front ++ (stepOpen ++ name)) (hname : parseUsize name = some i) :
    outputs i = none := by
  rcases hparse : parseUsize inner with - | j
  · rw [RegionOk, hparse] at hok
    rcases front with - | ⟨c, front⟩
    · obtain rfl := append_cancel_left htext
      exact hinner i hname
    · obtain ⟨front', hfront⟩ := exists_front (cons_ne_nil c front) htext
      rw [hfront, append_assoc] at htext
      have hfinished := hok front' name i (append_cancel_left htext) hname
      rw [← houtputs, isSome_eq_false_iff, isNone_iff_eq_none] at hfinished
      exact hfinished
  · obtain rfl := name_eq_of_number hparse htext
    exact hinner i hname

/-- The scanner replaces a region that it treats well as it should. -/
theorem Substituted.placeholder {inner after result : Text}
    (h : Substituted outputs after result)
    (hfirst : ∀ k < inner.length, ¬Search.OccursAt stepClose (inner ++ (stepClose ++ after)) k)
    (hok : RegionOk finished inner) (houtputs : ∀ i, (outputs i).isSome = finished i) :
    Substituted outputs (stepOpen ++ (inner ++ (stepClose ++ after)))
      (placeholderText outputs inner ++ result) := by
  have hstays (hinner : ∀ i, parseUsize inner = some i → outputs i = none) :=
    h.region hfirst fun front name i htext hname =>
      eq_none_of_regionOk hok houtputs hinner htext hname
  rcases hparse : parseUsize inner with - | i
  · have hregion := hstays fun i hi => by simp [hparse] at hi
    rw [placeholderText_of_none hparse]
    simpa only [append_assoc] using hregion
  · rcases houtput : outputs i with - | output
    · have hnone : finished i = false := by rw [← houtputs, houtput]; rfl
      rw [RegionOk, hparse] at hok
      have hinner : inner = Nat.toDigits 10 i := hok.resolve_left (by rw [hnone]; decide)
      have hregion := hstays fun j hj => by
        rw [hparse] at hj
        cases hj
        exact houtput
      rw [placeholderText_of_unfinished hparse houtput, ← hinner]
      simpa only [append_assoc] using hregion
    · rw [placeholderText_of_finished hparse houtput]
      exact Substituted.step hparse houtput h

def sameOutput (finished : ℕ → Bool) (i : ℕ) : Option Text := if finished i then some ['z'] else none

theorem isSome_sameOutput (finished : ℕ → Bool) (i : ℕ) :
    (sameOutput finished i).isSome = finished i := by
  rw [sameOutput]
  cases finished i <;> rfl

/-- A region that the scanner does not treat well shows in the result. -/
theorem regionOk_of_substituted {inner after result rest : Text}
    (h : Substituted (sameOutput finished) after result)
    (hfirst : ∀ k < inner.length, ¬Search.OccursAt stepClose (inner ++ (stepClose ++ after)) k)
    (hscanned : Substituted (sameOutput finished) (stepOpen ++ (inner ++ (stepClose ++ after)))
      (placeholderText (sameOutput finished) inner ++ rest)) : RegionOk finished inner := by
  rw [RegionOk]
  rcases hparse : parseUsize inner with - | i
  · rintro front name i rfl hname
    by_contra hfinished
    have houtput : sameOutput finished i = some ['z'] := by
      rw [sameOutput, if_pos (Bool.not_eq_false _ |>.mp hfinished)]
    have hswallowed := h.swallowed hfirst hname houtput
    rw [placeholderText_of_none hparse] at hscanned
    have heq := hscanned.unique hswallowed
    simp only [append_assoc] at heq
    have htail := append_cancel_left (append_cancel_left heq)
    exact absurd (cons.inj htail).1 (by decide)
  · by_contra hnot
    rw [not_or] at hnot
    have hnone : sameOutput finished i = none := by rw [sameOutput, if_neg hnot.1]
    have hregion := h.region hfirst fun front name j htext hname => by
      obtain rfl := name_eq_of_number hparse htext
      obtain rfl : i = j := some.inj (hparse.symm.trans hname)
      exact hnone
    rw [placeholderText_of_unfinished hparse hnone] at hscanned
    have heq := hscanned.unique hregion
    simp only [append_assoc] at heq
    have hname := (name_unique (ne_brace_toDigits i)
      (fun c hc => (ne_brace_of_parseUsize hparse c hc).2) (append_cancel_left heq)).1
    exact hnot.2 hname.symm

/-- The scanner gives the text that a template stands for, whatever the outputs of the finished
steps are, exactly if it treats all the names it takes well. -/
theorem substituteText_iff (finished : ℕ → Bool) :
    (∀ outputs : ℕ → Option Text, (∀ i, (outputs i).isSome = finished i) →
      Substituted outputs text (substituteText outputs text)) ↔
    ∀ inner ∈ regions text, RegionOk finished inner := by
  induction hn : text.length using Nat.strong_induction_on generalizing text with
  | _ n ih =>
    rcases substituteText_cases text with ⟨hregions, hstays⟩ |
      ⟨before, inner, after, htext, hbefore, hinner, hregions, hlt, hscanned⟩
    · simp only [hregions, not_mem_nil, false_implies, implies_true, iff_true]
      intro outputs _
      rw [(hstays outputs).1]
      exact (hstays outputs).2
    · have hafter := ih _ (hn ▸ hlt) after rfl
      rw [hregions, forall_mem_cons, ← hafter]
      have hplace {outputs : ℕ → Option Text} {result : Text}
          (h : Substituted outputs (stepOpen ++ (inner ++ (stepClose ++ after))) result) :
          Substituted outputs text (before ++ result) := by
        rw [htext] at hbefore ⊢
        exact h.append fun q hne hq => not_beginsWithStep_before hbefore hne hq
      constructor
      · intro h
        have hregion (outputs : ℕ → Option Text) (houtputs : ∀ i, (outputs i).isSome = finished i)
            (hok : RegionOk finished inner) :
            Substituted outputs after (substituteText outputs after) := by
          obtain ⟨result, hresult⟩ := exists_substituted outputs after
          have hwhole := hplace (hresult.placeholder hinner hok houtputs)
          have heq := (h outputs houtputs).unique hwhole
          rw [hscanned, append_assoc] at heq
          rw [append_cancel_left (append_cancel_left heq)]
          exact hresult
        have hok : RegionOk finished inner := by
          obtain ⟨result, hresult⟩ := exists_substituted (sameOutput finished) after
          obtain ⟨whole, hwhole⟩ := exists_substituted (sameOutput finished)
            (stepOpen ++ (inner ++ (stepClose ++ after)))
          have heq := (h _ (isSome_sameOutput finished)).unique (hplace hwhole)
          rw [hscanned, append_assoc] at heq
          rw [← append_cancel_left heq] at hwhole
          exact regionOk_of_substituted hresult hinner hwhole
        exact ⟨hok, fun outputs houtputs => hregion outputs houtputs hok⟩
      · rintro ⟨hok, h⟩ outputs houtputs
        rw [hscanned, append_assoc]
        exact hplace ((h outputs houtputs).placeholder hinner hok houtputs)

/-! ### The values of arguments -/

mutual

def Json.strings : Json → List String
  | .string value => [value]
  | .object fields => fieldStrings fields
  | .array items => itemStrings items
  | _ => []

/-- The string values in the items of an array. -/
def Json.itemStrings : List Json → List String
  | [] => []
  | item :: items => item.strings ++ itemStrings items

def Json.fieldStrings : List (String × Json) → List String
  | [] => []
  | (_, value) :: fields => value.strings ++ fieldStrings fields

end

mutual

def Json.mapStrings (f : String → String) : Json → Json
  | .string value => .string (f value)
  | .object fields => .object (mapFields f fields)
  | .array items => .array (mapItems f items)
  | other => other

/-- The items of an array with their string values changed. -/
def Json.mapItems (f : String → String) : List Json → List Json
  | [] => []
  | item :: items => item.mapStrings f :: mapItems f items

/-- The values of an object with their string values changed. -/
def Json.mapFields (f : String → String) : List (String × Json) → List (String × Json)
  | [] => []
  | (key, value) :: fields => (key, value.mapStrings f) :: mapFields f fields

end

mutual

variable {f g : String → String}

theorem Json.mapStrings_inj :
    ∀ {v : Json}, v.mapStrings f = v.mapStrings g → ∀ value ∈ v.strings, f value = g value
  | .string s, h, value, hvalue => by
    rw [Json.strings, mem_singleton] at hvalue
    rw [hvalue]
    exact Json.string.inj h
  | .object _, h, value, hvalue => mapFields_inj (Json.object.inj h) value hvalue
  | .array _, h, value, hvalue => mapItems_inj (Json.array.inj h) value hvalue
  | .null, _, _, hvalue => absurd hvalue not_mem_nil
  | .bool _, _, _, hvalue | .number _, _, _, hvalue => absurd hvalue not_mem_nil

theorem Json.mapItems_inj :
    ∀ {items : List Json}, mapItems f items = mapItems g items →
      ∀ value ∈ itemStrings items, f value = g value
  | [], _, _, hvalue => absurd hvalue not_mem_nil
  | item :: items, h, value, hvalue => by
    obtain ⟨hitem, hitems⟩ := cons.inj h
    rcases mem_append.1 hvalue with hvalue | hvalue
    · exact mapStrings_inj hitem value hvalue
    · exact mapItems_inj hitems value hvalue

theorem Json.mapFields_inj :
    ∀ {fields : List (String × Json)}, mapFields f fields = mapFields g fields →
      ∀ value ∈ fieldStrings fields, f value = g value
  | [], _, _, hvalue => absurd hvalue not_mem_nil
  | (key, v) :: fields, h, value, hvalue => by
    obtain ⟨hfield, hfields⟩ := cons.inj h
    rcases mem_append.1 hvalue with hvalue | hvalue
    · exact mapStrings_inj (Prod.mk.inj hfield).2 value hvalue
    · exact mapFields_inj hfields value hvalue

end

/-- The scanner over a string. -/
def substituteString (outputs : ℕ → Option Text) (value : String) : String :=
  String.ofList (substituteText outputs value.toList)

mutual

/-- Only string values are changed. -/
theorem substituteArgs_eq (outputs : ℕ → Option Text) :
    ∀ args, substituteArgs outputs args = args.mapStrings (substituteString outputs)
  | .string _ => rfl
  | .object fields => congrArg Json.object (substituteFields_eq outputs fields)
  | .array items => congrArg Json.array (substituteItems_eq outputs items)
  | .null | .bool _ | .number _ => rfl

theorem substituteItems_eq (outputs : ℕ → Option Text) :
    ∀ items, substituteItems outputs items = Json.mapItems (substituteString outputs) items
  | [] => rfl
  | item :: items => congrArg₂ List.cons (substituteArgs_eq outputs item)
      (substituteItems_eq outputs items)

theorem substituteFields_eq (outputs : ℕ → Option Text) :
    ∀ fields, substituteFields outputs fields = Json.mapFields (substituteString outputs) fields
  | [] => rfl
  | (key, value) :: fields => congrArg₂ List.cons
      (congrArg (Prod.mk key) (substituteArgs_eq outputs value))
      (substituteFields_eq outputs fields)

end

/-- The arguments that a step's arguments stand for: every string value is the text that it stands
for, and nothing else is changed. -/
def Substitutes (outputs : ℕ → Option Text) (args result : Json) : Prop :=
  ∃ f : String → String,
    (∀ value ∈ args.strings, Substituted outputs value.toList (f value).toList) ∧
      result = args.mapStrings f

theorem substitutes_iff (outputs : ℕ → Option Text) (args : Json) :
    Substitutes outputs args (substituteArgs outputs args) ↔
      ∀ value ∈ args.strings,
        Substituted outputs value.toList (substituteText outputs value.toList) := by
  rw [substituteArgs_eq]
  constructor
  · rintro ⟨f, hf, heq⟩ value hvalue
    have hsame := Json.mapStrings_inj heq value hvalue
    have htext := hf value hvalue
    rw [← hsame, substituteString, String.toList_ofList] at htext
    exact htext
  · intro h
    refine ⟨substituteString outputs, fun value hvalue => ?_, rfl⟩
    rw [substituteString, String.toList_ofList]
    exact h value hvalue

/-- The arguments become what they stand for, whatever the outputs of the finished steps are,
exactly if every name that is taken in a string value is a number that is finished or written as
numbers are, or is no number and does not end with a placeholder of a finished step. -/
theorem substituteArgs_iff (args : Json) (finished : ℕ → Bool) :
    (∀ outputs : ℕ → Option Text, (∀ i, (outputs i).isSome = finished i) →
      Substitutes outputs args (substituteArgs outputs args)) ↔
    ∀ value ∈ args.strings, ∀ inner ∈ regions value.toList, RegionOk finished inner := by
  simp only [substitutes_iff, ← substituteText_iff]
  exact ⟨fun h value hvalue outputs houtputs => h outputs houtputs value hvalue,
    fun h outputs houtputs value hvalue => h value hvalue outputs houtputs⟩

/-- Without outputs a number is written anew, and a placeholder behind an unfinished beginning of
one is not replaced. -/
theorem not_substitutes_zeros :
    ¬Substitutes (fun _ => none) (.string "\x7b\x7bstep_007\x7d\x7d")
        (substituteArgs (fun _ => none) (.string "\x7b\x7bstep_007\x7d\x7d")) ∧
      ¬Substitutes (fun i => if i = 1 then some ['x'] else none)
        (.string "\x7b\x7bstep_\x7b\x7bstep_1\x7d\x7d")
        (substituteArgs (fun i => if i = 1 then some ['x'] else none)
          (.string "\x7b\x7bstep_\x7b\x7bstep_1\x7d\x7d")) := by
  constructor
  · rw [substitutes_iff]
    intro h
    have hscanned : substituteText (fun _ => none) "\x7b\x7bstep_007\x7d\x7d".toList =
        "\x7b\x7bstep_7\x7d\x7d".toList := by
      have hregion := @substituteText_of_region (fun _ => none)
        "\x7b\x7bstep_007\x7d\x7d".toList [] "007\x7d\x7d".toList "007".toList [] (by decide)
        (by decide)
      rw [hregion, substituteText_of_none (by decide)]
      decide
    have heq := (h _ (mem_singleton_self _)).unique (substituted_none _)
    rw [hscanned] at heq
    exact absurd heq (by decide)
  · rw [substitutes_iff]
    intro h
    have hscanned : substituteText (fun i => if i = 1 then some ['x'] else none)
        "\x7b\x7bstep_\x7b\x7bstep_1\x7d\x7d".toList =
          "\x7b\x7bstep_\x7b\x7bstep_1\x7d\x7d".toList := by
      have hregion := @substituteText_of_region (fun i => if i = 1 then some ['x'] else none)
        "\x7b\x7bstep_\x7b\x7bstep_1\x7d\x7d".toList [] "\x7b\x7bstep_1\x7d\x7d".toList
        "\x7b\x7bstep_1".toList [] (by decide) (by decide)
      rw [hregion, substituteText_of_none (by decide)]
      decide
    have hend : Substituted (fun i => if i = 1 then some ['x'] else none) [] [] := .nil
    have heq := (h _ (mem_singleton_self _)).unique
      (@Substituted.swallowed _ [] ['1'] ['x'] [] [] 1 hend (by decide) (by decide) rfl)
    rw [hscanned] at heq
    exact absurd heq (by decide)

end Choreo
