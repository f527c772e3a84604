import Choreo.Client.SessionView
import Choreo.Library.Utf8Floor

/-!
# The live view of a tool's output

A client appends the chunks of a tool's output to the result it shows, up to the cap. Whether the
cap was reached is read off the length of the content: a content above the cap carries its marker,
a content at the cap gets it with the next character, and a content below the cap has lost nothing.
Two chunks one after the other therefore leave what their concatenation leaves, and so do all
chunks of a text.
-/

namespace Choreo

open List Option

/-! ### Appending up to the cap -/

/-- A text if it fits in the cap, else its longest beginning within the cap and one marker. -/
def cappedText (text : String) : String :=
  if text.utf8ByteSize ≤ maxToolOutputBytes then text
  else String.ofList (Utf8.floorPrefix maxToolOutputBytes text.toList ++ truncationSuffix)

theorem pushCapped_of_lt {content data : String} (h : content.utf8ByteSize < maxToolOutputBytes) :
    pushCapped content data =
      if content.utf8ByteSize + data.utf8ByteSize ≤ maxToolOutputBytes then content ++ data
      else String.ofList
        (Utf8.floorPrefix maxToolOutputBytes (content ++ data).toList ++ truncationSuffix) := by
  have hsize := Utf8.utf8ByteSize_eq_size content
  rw [pushCapped, if_neg (Nat.not_le_of_lt h)]
  dsimp only
  by_cases hfits : content.utf8ByteSize + data.utf8ByteSize ≤ maxToolOutputBytes
  · rw [if_pos hfits, if_pos (by omega)]
  · rw [if_neg hfits, if_neg (by omega), String.toList_append,
      Utf8.floorPrefix_append_of_le (by omega), hsize, append_assoc,
      String.ofList_append, String.ofList_append, String.ofList_toList,
      String.ofList_append]

theorem pushCapped_of_le {content data : String} (h : maxToolOutputBytes ≤ content.utf8ByteSize) :
    pushCapped content data =
      if content.utf8ByteSize = maxToolOutputBytes ∧ data ≠ "" then
        content ++ String.ofList truncationSuffix
      else content := by
  rw [pushCapped, if_pos h]

/-- A content above the cap is never changed again. -/
theorem pushCapped_of_gt {content : String} (data : String)
    (h : maxToolOutputBytes < content.utf8ByteSize) : pushCapped content data = content := by
  rw [pushCapped_of_le h.le, if_neg fun hat => absurd hat.1 h.ne']

theorem pushCapped_empty (data : String) : pushCapped "" data = cappedText data := by
  have hpos : ("" : String).utf8ByteSize < maxToolOutputBytes := by decide
  have hzero : ("" : String).utf8ByteSize = 0 := rfl
  rw [pushCapped_of_lt hpos, cappedText, hzero, Nat.zero_add, String.empty_append]

theorem pushCapped_nothing (content : String) : pushCapped content "" = content := by
  have hzero : ("" : String).utf8ByteSize = 0 := rfl
  by_cases h : content.utf8ByteSize < maxToolOutputBytes
  · rw [pushCapped_of_lt h, hzero, Nat.add_zero, if_pos h.le, String.append_empty]
  · rw [pushCapped_of_le (Nat.le_of_not_lt h), if_neg fun hne => hne.2 rfl]

theorem lt_utf8ByteSize_marked {text : List Char} (h : maxToolOutputBytes < Utf8.size text) :
    maxToolOutputBytes <
      (String.ofList
        (Utf8.floorPrefix maxToolOutputBytes text ++ truncationSuffix)).utf8ByteSize := by
  have hshort := Utf8.lt_size_floorPrefix_add_four h
  have hmarker : Utf8.size truncationSuffix = 15 := by decide
  rw [Utf8.utf8ByteSize_eq_size, String.toList_ofList, Utf8.size_append, hmarker]
  omega

theorem utf8ByteSize_eq_zero {text : String} : text.utf8ByteSize = 0 ↔ text = "" :=
  String.utf8ByteSize_eq_zero_iff

/-- Two chunks are as good as one. -/
theorem pushCapped_pushCapped (content data data' : String) :
    pushCapped (pushCapped content data) data' = pushCapped content (data ++ data') := by
  have hmarker : Utf8.size truncationSuffix = 15 := by decide
  have hsum : (data ++ data').utf8ByteSize = data.utf8ByteSize + data'.utf8ByteSize :=
    String.utf8ByteSize_append
  rcases lt_trichotomy content.utf8ByteSize maxToolOutputBytes with hlt | heq | hgt
  · rw [pushCapped_of_lt hlt, pushCapped_of_lt hlt, hsum]
    by_cases hfits : content.utf8ByteSize + data.utf8ByteSize ≤ maxToolOutputBytes
    · have hcontent : (content ++ data).utf8ByteSize =
          content.utf8ByteSize + data.utf8ByteSize := String.utf8ByteSize_append
      rw [if_pos hfits]
      rcases hfits.lt_or_eq with hroom | hfull
      · rw [pushCapped_of_lt (by omega), hcontent, Nat.add_assoc, String.append_assoc]
      · -- the content ends at the cap, so that the next character is the first one cut
        rw [pushCapped_of_le (by omega), hcontent]
        by_cases hempty : data' = ""
        · rw [hempty, if_neg fun h => h.2 rfl, String.append_empty]
          have hzero : ("" : String).utf8ByteSize = 0 := rfl
          rw [if_pos (by omega)]
        · have hpos : data'.utf8ByteSize ≠ 0 := fun h => hempty (utf8ByteSize_eq_zero.1 h)
          have hsize : Utf8.size (content ++ data).toList = maxToolOutputBytes := by
            rw [← Utf8.utf8ByteSize_eq_size, hcontent, hfull]
          rw [if_pos ⟨hfull, hempty⟩, if_neg (by omega), ← String.append_assoc,
            String.toList_append (s := content ++ data), ← hsize,
            Utf8.floorPrefix_append_of_size, String.ofList_append, String.ofList_toList]
    · have hlong : maxToolOutputBytes < Utf8.size (content ++ data).toList := by
        rw [← Utf8.utf8ByteSize_eq_size, String.utf8ByteSize_append]
        omega
      rw [if_neg hfits, if_neg (by omega), pushCapped_of_gt _ (lt_utf8ByteSize_marked hlong),
        ← String.append_assoc, String.toList_append (s := content ++ data),
        Utf8.floorPrefix_append_of_lt hlong]
  · by_cases hempty : data = ""
    · rw [hempty, String.empty_append, pushCapped_of_le heq.ge, if_neg fun h => h.2 rfl]
    · have hne : data ++ data' ≠ "" := fun h => by
        rw [← utf8ByteSize_eq_zero, hsum] at h
        exact hempty (utf8ByteSize_eq_zero.1 (by omega))
      rw [pushCapped_of_le heq.ge, pushCapped_of_le heq.ge, if_pos ⟨heq, hempty⟩,
        if_pos ⟨heq, hne⟩]
      refine pushCapped_of_gt _ ?_
      rw [String.utf8ByteSize_append, Utf8.utf8ByteSize_eq_size (String.ofList _),
        String.toList_ofList, hmarker]
      omega
  · rw [pushCapped_of_gt data hgt, pushCapped_of_gt _ hgt, pushCapped_of_gt _ hgt]

theorem modifyFirst_modifyFirst {α : Type*} {p : α → Bool} {f g : α → α}
    (hf : ∀ a, p (f a) = p a) (as : List α) :
    SessionView.modifyFirst p g (SessionView.modifyFirst p f as) =
      SessionView.modifyFirst p (g ∘ f) as := by
  induction as with
  | nil => rfl
  | cons a as ih =>
    rw [SessionView.modifyFirst, SessionView.modifyFirst]
    split_ifs with ha
    · rw [SessionView.modifyFirst, hf, if_pos ha]
      rfl
    · rw [SessionView.modifyFirst, if_neg ha, ih]

theorem any_modifyFirst {α : Type*} {p : α → Bool} {f : α → α} (hf : ∀ a, p (f a) = p a)
    (as : List α) : (SessionView.modifyFirst p f as).any p = as.any p := by
  induction as with
  | nil => rfl
  | cons a as ih =>
    rw [SessionView.modifyFirst]
    split_ifs with ha
    · rw [any_cons, any_cons, hf]
    · rw [any_cons, any_cons, ih]

theorem modifyFirst_append_of_not_any {α : Type*} {p : α → Bool} (f : α → α) {as : List α}
    (h : ¬as.any p = true) (bs : List α) :
    SessionView.modifyFirst p f (as ++ bs) = as ++ SessionView.modifyFirst p f bs := by
  induction as with
  | nil => rfl
  | cons a as ih =>
    rw [any_cons, Bool.or_eq_true, not_or] at h
    rw [cons_append, SessionView.modifyFirst, if_neg h.1, ih h.2, cons_append]

theorem find?_modifyFirst {α : Type*} {p : α → Bool} {f : α → α} (hf : ∀ a, p (f a) = p a)
    (as : List α) : (SessionView.modifyFirst p f as).find? p = (as.find? p).map f := by
  induction as with
  | nil => rfl
  | cons a as ih =>
    rw [SessionView.modifyFirst]
    split_ifs with ha
    · rw [List.find?_cons_of_pos ha, List.find?_cons_of_pos ((hf a).trans ha), map_some]
    · rw [List.find?_cons_of_neg ha, List.find?_cons_of_neg ha, ih]

/-! ### The chunks of one call -/

variable (description : Option String)

/-- A result with a chunk appended, and with the description of its call if it has none. -/
def ToolResultRecord.withChunk (data : String)
    (result : ToolResultRecord) : ToolResultRecord :=
  { result with
    invocationDescription :=
      if result.invocationDescription = "" then description.getD ""
      else result.invocationDescription
    content := pushCapped result.content data }

def Turn.withResultChunk (callId data : String) (turn : Turn) :
    Turn :=
  { turn with
    toolResults :=
      if turn.toolResults.any (·.callId == callId) then
        SessionView.modifyFirst (·.callId == callId) (·.withChunk description data)
          turn.toolResults
      else
        turn.toolResults ++
          [{ callId := callId
             name := ((turn.toolCalls.find? (·.callId == callId)).map (·.name)).getD ""
             content := pushCapped "" data
             isError := false
             invocationDescription := description.getD ""
             image := none }] }

theorem ToolResultRecord.withChunk_withChunk (data data' : String)
    (result : ToolResultRecord) :
    (result.withChunk description data).withChunk description data' =
      result.withChunk description (data ++ data') := by
  simp only [ToolResultRecord.withChunk, pushCapped_pushCapped, ToolResultRecord.mk.injEq,
    true_and, and_true]
  split_ifs <;> rfl

theorem callId_withChunk (callId data : String)
    (result : ToolResultRecord) :
    ((result.withChunk description data).callId == callId) = (result.callId == callId) :=
  rfl

theorem Turn.withResultChunk_withResultChunk
    (callId data data' : String) (turn : Turn) :
    (turn.withResultChunk description callId data).withResultChunk description callId data' =
      turn.withResultChunk description callId (data ++ data') := by
  have hkeeps (text : String) := callId_withChunk description callId text
  rw [Turn.withResultChunk, Turn.withResultChunk, Turn.withResultChunk]
  dsimp only
  by_cases hany : turn.toolResults.any (·.callId == callId) = true
  · rw [if_pos hany, if_pos hany, any_modifyFirst (hkeeps data), if_pos hany,
      modifyFirst_modifyFirst (hkeeps data)]
    have hcomp : (fun result => ToolResultRecord.withChunk description data' result) ∘
        (fun result => ToolResultRecord.withChunk description data result) =
          fun result => ToolResultRecord.withChunk description (data ++ data') result := by
      funext result
      exact result.withChunk_withChunk description data data'
    rw [hcomp]
  · rw [if_neg hany, if_neg hany, any_append]
    have hnew : ([({ callId := callId
                     name := ((turn.toolCalls.find? (·.callId == callId)).map (·.name)).getD ""
                     content := pushCapped "" data
                     isError := false
                     invocationDescription := description.getD ""
                     image := none } : ToolResultRecord)].any (·.callId == callId)) = true := by
      simp
    rw [hnew, Bool.or_true, if_pos rfl, modifyFirst_append_of_not_any _ hany]
    simp only [SessionView.modifyFirst, beq_self_eq_true, if_true, ToolResultRecord.withChunk,
      pushCapped_pushCapped, Turn.mk.injEq, append_cancel_left_eq]
    simp

namespace SessionView

variable (view : SessionView) (requestId : ℕ)

theorem toolResultChunk_eq (callId data : String) :
    view.toolResultChunk requestId callId data =
      view.modifyRequestTurn requestId
        (Turn.withResultChunk view.toolCallDescriptions[callId]? callId data) :=
  rfl

def resultContent (callId : String) : Option String := do
  let turnId ← view.requestToTurn[requestId]?
  let turn ← view.turns[turnId]?
  let result ← turn.toolResults.find? (·.callId == callId)
  return result.content

theorem modifyRequestTurn_modifyRequestTurn
    (f g : Turn → Turn) :
    (view.modifyRequestTurn requestId f).modifyRequestTurn requestId g =
      view.modifyRequestTurn requestId (g ∘ f) := by
  rcases hroute : view.requestToTurn[requestId]? with - | turnId
  · simp only [modifyRequestTurn, hroute]
  · have hturns : (view.turns.modify turnId f).modify turnId g =
        view.turns.modify turnId (g ∘ f) := by
      refine Std.ExtTreeMap.ext_getElem? fun k => ?_
      simp only [Std.ExtTreeMap.get_modify]
      split_ifs
      · rw [Option.map_map]
      · rfl
    simp only [modifyRequestTurn, hroute, hturns]

theorem modifyRequestTurn_toolCallDescriptions
    (f : Turn → Turn) :
    (view.modifyRequestTurn requestId f).toolCallDescriptions = view.toolCallDescriptions := by
  rw [modifyRequestTurn]
  split <;> rfl

theorem toolResultChunk_toolResultChunk
    (callId data data' : String) :
    (view.toolResultChunk requestId callId data).toolResultChunk requestId callId data' =
      view.toolResultChunk requestId callId (data ++ data') := by
  rw [toolResultChunk_eq, toolResultChunk_eq, toolResultChunk_eq,
    modifyRequestTurn_toolCallDescriptions, modifyRequestTurn_modifyRequestTurn]
  congr 1
  funext turn
  exact turn.withResultChunk_withResultChunk _ callId data data'

theorem foldl_toolResultChunk (callId data : String)
    (chunks : List String) :
    chunks.foldl (·.toolResultChunk requestId callId ·)
        (view.toolResultChunk requestId callId data) =
      view.toolResultChunk requestId callId (data ++ String.join chunks) := by
  induction chunks generalizing data with
  | nil => rw [foldl_nil, String.join_nil, String.append_empty]
  | cons data' chunks ih =>
    rw [foldl_cons, toolResultChunk_toolResultChunk, ih, String.join_cons,
      String.append_assoc]

theorem resultContent_of_not_routes {view : SessionView} {requestId : ℕ} {callId : String}
    (h : ¬view.routes requestId = true) : view.resultContent requestId callId = none := by
  rw [routes] at h
  rw [resultContent]
  rcases hroute : view.requestToTurn[requestId]? with - | turnId
  · rfl
  · rw [hroute] at h
    have hnone : view.turns[turnId]? = none := by
      rw [Std.ExtTreeMap.getElem?_eq_none]
      exact fun hmem => h (decide_eq_true hmem)
    dsimp only [bind, Option.bind]
    rw [hnone]

theorem resultContent_toolResultChunk
    (callId data : String) :
    (view.toolResultChunk requestId callId data).resultContent requestId callId =
      if view.routes requestId then
        some (pushCapped ((view.resultContent requestId callId).getD "") data)
      else none := by
  rw [toolResultChunk_eq, resultContent, resultContent, modifyRequestTurn_requestToTurn, routes]
  rcases hroute : view.requestToTurn[requestId]? with - | turnId
  · rfl
  · have hget := view.get_modifyRequestTurn requestId turnId
      (Turn.withResultChunk view.toolCallDescriptions[callId]? callId data)
    rw [if_pos hroute] at hget
    dsimp only [bind, Option.bind]
    rw [hget]
    rcases hturn : view.turns[turnId]? with - | turn
    · have hnot : ¬turnId ∈ view.turns := by
        rw [← Std.ExtTreeMap.isSome_getElem?_iff_mem, hturn]
        exact Bool.false_ne_true
      simp [hnot]
    · have hmem : turnId ∈ view.turns := by
        rw [← Std.ExtTreeMap.isSome_getElem?_iff_mem, hturn]
        rfl
      rw [if_pos (decide_eq_true hmem), map_some]
      dsimp only
      rw [Turn.withResultChunk]
      dsimp only
      by_cases hany : turn.toolResults.any (·.callId == callId) = true
      · rw [if_pos hany, find?_modifyFirst (callId_withChunk _ callId data)]
        obtain ⟨result, hresult⟩ := isSome_iff_exists.1 (List.find?_isSome.2
          (List.any_eq_true.1 hany))
        rw [hresult]
        rfl
      · have hnone : turn.toolResults.find? (·.callId == callId) = none := by
          rw [List.find?_eq_none]
          intro result hresult hcall
          exact hany (List.any_eq_true.2 ⟨result, hresult, hcall⟩)
        rw [if_neg hany, List.find?_append, hnone]
        simp

/-- The live view does not depend on how a text is cut into chunks: the content shown after the
chunks is the content shown after the whole text. A call that showed nothing shows the text if it
fits in the cap, and else its longest beginning within the cap and one marker. -/
theorem toolResultChunk_chunks (view : SessionView) (requestId : ℕ) (callId : String)
    (chunks : List String) :
    ((chunks.foldl (·.toolResultChunk requestId callId ·) view).resultContent
          requestId callId).getD "" =
        ((view.toolResultChunk requestId callId (String.join chunks)).resultContent
          requestId callId).getD "" ∧
      (view.routes requestId = true → (view.resultContent requestId callId).getD "" = "" →
        ∃ part : List Char, part <+: (String.join chunks).toList ∧
          Utf8.size part ≤ maxToolOutputBytes ∧
          (∀ part', part' <+: (String.join chunks).toList →
            Utf8.size part' ≤ maxToolOutputBytes → part' <+: part) ∧
          ((chunks.foldl (·.toolResultChunk requestId callId ·) view).resultContent
              requestId callId).getD "" =
            if (String.join chunks).utf8ByteSize ≤ maxToolOutputBytes then String.join chunks
            else String.ofList (part ++ truncationSuffix)) := by
  have hsame : ((chunks.foldl (·.toolResultChunk requestId callId ·) view).resultContent
        requestId callId).getD "" =
      ((view.toolResultChunk requestId callId (String.join chunks)).resultContent
        requestId callId).getD "" := by
    rcases chunks with - | ⟨data, chunks⟩
    · rw [foldl_nil, String.join_nil, resultContent_toolResultChunk]
      split_ifs with hroutes
      · rw [pushCapped_nothing, getD_some]
      · rw [resultContent_of_not_routes hroutes]
    · rw [foldl_cons, foldl_toolResultChunk, String.join_cons]
  refine ⟨hsame, fun hroutes hempty => ?_⟩
  refine ⟨Utf8.floorPrefix maxToolOutputBytes (String.join chunks).toList,
    Utf8.floorPrefix_isPrefix _ _, Utf8.size_floorPrefix_le _ _,
    fun part' hpart' hsize => Utf8.floorPrefix_longest hpart' hsize, ?_⟩
  rw [hsame, resultContent_toolResultChunk, if_pos hroutes, hempty, pushCapped_empty]
  rfl

end SessionView

end Choreo
