import Choreo.Database.KeyValue
import Choreo.Vm.GuestResults

/-!
# The key-value store of a guest

A guest keeps values in its session's part of the key-value store with `db_get`, `db_set` and
`db_delete` (the generated module of `choreo-daemon/src/tools/vm.rs`); the host executes the tools
of `choreo-daemon/src/tools/db`. The store holds bytes, but the tool returns a value as a text, with
what is not UTF-8 replaced. The guest takes every answer to a deletion for a success, also that the
key was not found.
-/

namespace Choreo

open List Option

open Postcard (Blob)
open Postcard renaming Text → WireText

/-- A call of a guest to the store. -/
inductive DbCall
  | get (key : WireText)
  | set (key : WireText) (value : Blob)
  | delete (key : WireText)

/-- What a guest gets for a call. -/
inductive DbAnswer
  | value (value : Bytes)
  | unit
  | deleted (found : Bool)
deriving DecidableEq, Repr

def optionText : Option String → Bytes
  | none => [0]
  | some text => 1 :: (Protobuf.varint text.utf8ByteSize ++ text.toByteArray.data.toList)

/-- What the database tools do in a session; `none` for the other tools. -/
def executeDb (sessionId : ℕ) (t : KvTable) : HostArgs → Option (ToolReturn × KvTable)
  | .dbGet args =>
    let value := t.kvGet sessionId args.key.1
    some (.ok (optionText (value.map fun v => String.ofList (Utf8.decodeLossy v))), t)
  | .dbSet args =>
    some (.ok (Postcard.str.write ⟨"ok", by decide⟩), t.kvSet sessionId args.key.1 args.value.1)
  | .dbDelete args =>
    let (found, t) := t.kvDelete sessionId args.key.1
    some (.ok (Postcard.str.write (if found then ⟨"deleted", by decide⟩
      else ⟨"not found", by decide⟩)), t)
  | _ => none

/-- The value that a guest reads from an answer. -/
def dbGetValue (resp : Bytes) : Bytes :=
  match decDoubleResult resp with
  | .error _ | .ok [] => []
  | .ok (tag :: text) => if tag = 0 then [] else (strOr "" text).toByteArray.data.toList

namespace DbCall

def guestCall : DbCall → GuestCall
  | get key => .dbGet key
  | set key value => .dbSet key value
  | delete key => .dbDelete key

def hostArgs : DbCall → HostArgs
  | get key => .dbGet ⟨key⟩
  | set key value => .dbSet ⟨key, value⟩
  | delete key => .dbDelete ⟨key⟩

/-- The host reads a request, executes it and writes as much of the answer as the buffer takes. -/
def serve (sessionId : ℕ) (call : DbCall) (t : KvTable) : Option (Bytes × KvTable) :=
  (HostArgs.readRequest call.guestCall.request).bind fun read =>
    (executeDb sessionId t read.1).map fun out => ((encodeOuter out.1).take outputSize, out.2)

/-- What the guest makes of an answer. -/
def answer (resp : Bytes) : DbCall → DbAnswer
  | get _ => .value (dbGetValue resp)
  | set .. => .unit
  | delete _ => .deleted (decDoubleResult resp).isOk

/-- The answers to a sequence of calls. -/
def run (sessionId : ℕ) : List DbCall → KvTable → Option (List DbAnswer)
  | [], _ => some []
  | call :: calls, t =>
    (call.serve sessionId t).bind fun out =>
      (run sessionId calls out.2).map (call.answer out.1 :: ·)

/-! ### A map of bytes -/

/-- The values of a session. -/
def contents (sessionId : ℕ) (t : KvTable) (key : String) : Option Bytes := t.kvGet sessionId key

/-- A call on a map: the answer, and the map after it. -/
def spec (m : String → Option Bytes) : DbCall → DbAnswer × (String → Option Bytes)
  | get key => (.value ((m key.1).getD []), m)
  | set key value => (.unit, Function.update m key.1 (some value.1))
  | delete key => (.deleted (m key.1).isSome, Function.update m key.1 none)

def specRun : List DbCall → (String → Option Bytes) → List DbAnswer
  | [], _ => []
  | call :: calls, m => (call.spec m).1 :: specRun calls (call.spec m).2

/-- A value that is asked for fits into the guest's buffer, with what is written before it. -/
def Fits (m : String → Option Bytes) : DbCall → Prop
  | get key => ∀ value ∈ m key.1,
    3 + (Protobuf.varint value.length).length + value.length ≤ outputSize
  | _ => True

def Exact (m : String → Option Bytes) : DbCall → Prop
  | get key => ∀ value ∈ m key.1, fromUtf8 value ≠ none
  | set .. => True
  | delete key => m key.1 ≠ none

/-- A property of every call and the map before it. -/
def AllSteps (P : (String → Option Bytes) → DbCall → Prop) :
    List DbCall → (String → Option Bytes) → Prop
  | [], _ => True
  | call :: calls, m => P m call ∧ AllSteps P calls (call.spec m).2

end DbCall

/-! ### Values and texts -/

theorem decodeLossy_of_fromUtf8 {value : Bytes} {text : String} (h : fromUtf8 value = some text) :
    String.ofList (Utf8.decodeLossy value) = text := by
  have hencode : value = Utf8.encode text.toList := by
    rw [← bytes_of_fromUtf8 h, ← String.utf8Encode_toList, List.utf8Encode, List.data_toByteArray]
    rfl
  rw [hencode, Utf8.decodeLossy_encode, String.ofList_toList]

/-- What a guest reads is a text. -/
theorem fromUtf8_dbGetValue (resp : Bytes) : fromUtf8 (dbGetValue resp) ≠ none := by
  have htext (text : String) : fromUtf8 text.toByteArray.data.toList ≠ none := by
    have hbytes : (⟨text.toByteArray.data.toList.toArray⟩ : ByteArray) = text.toByteArray := rfl
    rw [fromUtf8, hbytes, String.fromUTF8?, dif_pos text.isValidUTF8]
    exact some_ne_none _
  rw [dbGetValue]
  split
  · exact htext ""
  · exact htext ""
  · split_ifs
    · exact htext ""
    · exact htext _

theorem dbGetValue_none : dbGetValue ((encodeOuter (.ok (optionText none))).take outputSize) = [] :=
  rfl

/-- A text that fits is read as it is. -/
theorem dbGetValue_some {value : Bytes} {text : String} (h : fromUtf8 value = some text)
    (hfits : 3 + (Protobuf.varint value.length).length + value.length ≤ outputSize) :
    dbGetValue ((encodeOuter (.ok (optionText (some text)))).take outputSize) = value := by
  have hsize := size_of_fromUtf8 h
  let wire : WireText := ⟨text, by
    have hbound : outputSize < 2 ^ 64 := by decide
    omega⟩
  have hlength : (encodeOuter (.ok (optionText (some text)))).length ≤ outputSize := by
    rw [optionText, bytes_of_fromUtf8 h, hsize]
    simp only [encodeOuter, length_cons, length_append]
    omega
  have hread : strOr "" (Postcard.str.write wire) = text := by
    have hwrite := decStr_write wire []
    rw [append_nil] at hwrite
    rw [strOr, hwrite]
  rw [take_of_length_le hlength]
  change (strOr "" (Postcard.str.write wire)).toByteArray.data.toList = value
  rw [hread, bytes_of_fromUtf8 h]

namespace DbCall

/-! ### One call -/

theorem contents_kvSet (sessionId : ℕ) (t : KvTable) (key : String) (value : Bytes) :
    contents sessionId (t.kvSet sessionId key value) =
      Function.update (contents sessionId t) key (some value) := by
  funext other
  rw [contents, KvTable.kvGet, KvTable.kvSet, Std.ExtTreeMap.get_insert, Function.update_apply]
  exact if_congr (by simp) rfl rfl

theorem contents_kvDelete (sessionId : ℕ) (t : KvTable) (key : String) :
    contents sessionId (t.kvDelete sessionId key).2 =
      Function.update (contents sessionId t) key none := by
  funext other
  rw [contents, KvTable.kvGet, KvTable.kvDelete, Std.ExtTreeMap.get_erase, Function.update_apply]
  exact if_congr (by simp) rfl rfl

theorem readRequest_guestCall (call : DbCall) :
    HostArgs.readRequest call.guestCall.request = some (call.hostArgs, []) := by
  have hdelivered : call.guestCall.Delivered := by
    rcases call with key | ⟨key, value⟩ | key
    all_goals exact GuestCall.delivered_of_ne_grep trivial (by simp [guestCall, GuestCall.tool])
  obtain ⟨args, hread, hasks⟩ := hdelivered
  rw [hread]
  rcases call with key | ⟨key, value⟩ | key <;> cases args <;> cases hasks <;> rfl

/-- A call changes the map as it should, and its answer is right if and only if the call is
exact. -/
theorem serve_spec (sessionId : ℕ) (t : KvTable) {call : DbCall}
    (hfits : call.Fits (contents sessionId t)) :
    ∃ resp t', call.serve sessionId t = some (resp, t') ∧
      contents sessionId t' = (call.spec (contents sessionId t)).2 ∧
      (call.answer resp = (call.spec (contents sessionId t)).1 ↔
        call.Exact (contents sessionId t)) := by
  rw [serve, readRequest_guestCall, bind_some]
  rcases call with key | ⟨key, value⟩ | key
  · refine ⟨_, _, rfl, rfl, ?_⟩
    have hvalue : t.kvGet sessionId key.1 = contents sessionId t key.1 := rfl
    rw [answer, spec, DbAnswer.value.injEq, Exact, hvalue]
    cases hget : contents sessionId t key.1 with
    | none => exact iff_of_true dbGetValue_none nofun
    | some value =>
      rw [map_some, getD_some]
      constructor
      · rintro heq _ ⟨⟩
        rw [← heq]
        exact fromUtf8_dbGetValue _
      · intro hexact
        obtain ⟨text, htext⟩ := ne_none_iff_exists'.1 (hexact value rfl)
        rw [decodeLossy_of_fromUtf8 htext]
        exact dbGetValue_some htext (hfits value hget)
  · exact ⟨_, _, rfl, contents_kvSet sessionId t key.1 value.1, iff_of_true rfl trivial⟩
  · refine ⟨_, _, rfl, contents_kvDelete sessionId t key.1, ?_⟩
    rw [answer, spec, DbAnswer.deleted.injEq, Exact, ← isSome_iff_ne_none]
    have hok (value : Bytes) :
        (decDoubleResult ((encodeOuter (.ok value)).take outputSize)).isOk = true := rfl
    rw [hok]
    exact eq_comm

/-! ### Runs -/

/-- In every session and from every table, calls whose values fit get the answers of a map of bytes
if and only if all of them are exact. -/
theorem answers_iff (sessionId : ℕ) (t : KvTable) (calls : List DbCall)
    (hfits : AllSteps Fits calls (contents sessionId t)) :
    run sessionId calls t = some (specRun calls (contents sessionId t)) ↔
      AllSteps Exact calls (contents sessionId t) := by
  induction calls generalizing t with
  | nil => exact iff_of_true rfl trivial
  | cons call calls ih =>
    obtain ⟨hfits, hrest⟩ := hfits
    obtain ⟨resp, t', hserve, hcontents, hanswer⟩ := serve_spec sessionId t hfits
    rw [← hcontents] at hrest
    rw [run, hserve, bind_some, specRun, AllSteps, ← hcontents, ← hanswer, ← ih t' hrest]
    cases run sessionId calls t' with
    | none => exact iff_of_false nofun fun h => nomatch h.2
    | some answers => rw [map_some, some.injEq, cons.injEq, some.injEq]

/-- Sets a key, gets it and deletes it. -/
def sampleRun : List DbCall :=
  [.set ⟨"k", by decide⟩ ⟨[0x61], by decide⟩, .get ⟨"k", by decide⟩, .delete ⟨"k", by decide⟩]

theorem run_sampleRun :
    run 1 sampleRun ∅ = some (specRun sampleRun (contents 1 ∅)) ↔
      AllSteps Exact sampleRun (contents 1 ∅) :=
  answers_iff 1 ∅ sampleRun
    ⟨trivial, by rintro _ ⟨⟩; simp [Protobuf.varint, outputSize], trivial, trivial⟩

/-- A key that is not there is reported as deleted. -/
theorem not_answers :
    ¬ ∀ calls : List DbCall, AllSteps Fits calls (contents 1 ∅) →
      run 1 calls ∅ = some (specRun calls (contents 1 ∅)) := by
  intro h
  have hrun := h [.delete ⟨"k", by decide⟩] ⟨trivial, trivial⟩
  rw [run, serve, readRequest_guestCall] at hrun
  have hfound : DbAnswer.deleted true = .deleted (contents 1 ∅ "k").isSome :=
    (cons.inj (some.inj hrun)).1
  rw [contents, KvTable.kvGet, Std.ExtTreeMap.getElem?_empty] at hfound
  cases hfound

end DbCall

end Choreo
