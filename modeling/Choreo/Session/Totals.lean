import Choreo.Session.Requests
import Choreo.Session.Restart
import Choreo.Library.Weights

/-!
# Token totals

The token totals of a session are three counters of 32 bits. The agent loop adds up the usages of
its model calls as they come in, and a session thread that starts adds up the usages of the turns
that it can read. Both are right when they are the sum over the turns of the session, as natural
numbers. The turns matter for the totals by the tokens of each turn id only, which most commands
leave alone.
-/

namespace Choreo

/-- The counters of a token usage. -/
inductive Counter
  | input
  | output
  | total
deriving DecidableEq, Repr

instance : Fintype Counter where
  elems := {.input, .output, .total}
  complete c := by cases c <;> simp

namespace TokenUsage

/-- The value of a counter. -/
def tokens (u : TokenUsage) : Counter → ℕ
  | .input => u.inputTokens.toNat
  | .output => u.outputTokens.toNat
  | .total => u.totalTokens.toNat

theorem tokens_injective : Function.Injective tokens := by
  rintro ⟨i, o, t⟩ ⟨i', o', t'⟩ h
  have hi : i = i' := UInt32.toNat_inj.1 (congrFun h .input)
  have ho : o = o' := UInt32.toNat_inj.1 (congrFun h .output)
  have ht : t = t' := UInt32.toNat_inj.1 (congrFun h .total)
  rw [hi, ho, ht]

/-- Totals are ordered by all their counters. -/
instance : PartialOrder TokenUsage := PartialOrder.lift tokens tokens_injective

variable {u v : TokenUsage}

theorem le_iff : u ≤ v ↔ ∀ c, u.tokens c ≤ v.tokens c := Iff.rfl

instance : DecidableLE TokenUsage := fun _ _ => decidable_of_iff _ le_iff.symm

theorem tokens_lt (u : TokenUsage) (c : Counter) : u.tokens c < 2 ^ 32 := by
  cases c <;> exact UInt32.toNat_lt _

theorem tokens_add (u v : TokenUsage) (c : Counter) :
    (u.add v).tokens c = (u.tokens c + v.tokens c) % 2 ^ 32 := by
  cases c <;> exact UInt32.toNat_add _ _

/-- The sync of larger totals takes them over. -/
theorem mergeMax_eq_of_le (h : u ≤ v) : u.mergeMax v = v := by
  have hmax : ∀ {a b : UInt32}, a.toNat ≤ b.toNat → max a b = b := by
    intro a b hab
    change (if a ≤ b then b else a) = b
    rw [if_pos (UInt32.le_iff_toNat_le.2 hab)]
  obtain ⟨i, o, t⟩ := v
  rw [mergeMax, hmax (h .input), hmax (h .output), hmax (h .total)]

/-- Adding up does not wrap around. -/
def Fits (u v : TokenUsage) : Prop := ∀ c, u.tokens c + v.tokens c < 2 ^ 32

instance (u v : TokenUsage) : Decidable (u.Fits v) :=
  inferInstanceAs (Decidable (∀ c, u.tokens c + v.tokens c < 2 ^ 32))

theorem tokens_add_of_fits (h : u.Fits v) (c : Counter) :
    (u.add v).tokens c = u.tokens c + v.tokens c := by
  rw [tokens_add, Nat.mod_eq_of_lt (h c)]

theorem le_add_of_fits (h : u.Fits v) : u ≤ u.add v := by
  intro c
  rw [tokens_add_of_fits h]
  exact Nat.le_add_right _ _

end TokenUsage

/-- The tokens that a turn reports. -/
def Turn.tokens (c : Counter) (turn : Turn) : ℕ := turn.tokenUsage.elim 0 fun u => u.tokens c

/-- The tokens of the turn with the given id. -/
def tokensAt (turns : TurnMap) (k : ℕ) (c : Counter) : ℕ := turns.weightAt (Turn.tokens c) k

def TokenUsage.SumOf (u : TokenUsage) (turns : TurnMap) : Prop :=
  ∀ c, u.tokens c = turns.weight (Turn.tokens c)

theorem tokensAt_of_get {turns : TurnMap} {k : ℕ} {turn : Turn} (h : turns[k]? = some turn)
    (c : Counter) : tokensAt turns k c = turn.tokens c :=
  Std.ExtTreeMap.weightAt_of_get _ h

theorem tokensAt_of_none {turns : TurnMap} {k : ℕ} (h : turns[k]? = none) (c : Counter) :
    tokensAt turns k c = 0 :=
  Std.ExtTreeMap.weightAt_of_none _ h

theorem TokenUsage.SumOf.congr {u : TokenUsage} {turns turns' : TurnMap} (h : u.SumOf turns)
    (hturns : ∀ k c, tokensAt turns' k c = tokensAt turns k c) : u.SumOf turns' := by
  intro c
  rw [h c]
  exact (Std.ExtTreeMap.weight_congr fun k => hturns k c).symm

theorem TokenUsage.SumOf.le {u v : TokenUsage} {turns turns' : TurnMap} (h : u.SumOf turns)
    (h' : v.SumOf turns') (hturns : ∀ k c, tokensAt turns k c ≤ tokensAt turns' k c) : u ≤ v := by
  intro c
  rw [h c, h' c]
  exact Std.ExtTreeMap.weight_mono fun k => hturns k c

/-! ### The totals at the start -/

def Store.readable (store : Store) : TurnMap :=
  store.readTurns.foldl (fun m entry => m.insert entry.1 entry.2) ∅

theorem Store.get_readable (store : Store) (k : ℕ) : store.readable[k]? = store.readTurn k :=
  store.get_foldl_readTurns k

/-- A fold that adds each turn's tokens modulo the size of the counters adds up modulo it. -/
theorem tokens_foldl {step : TokenUsage × Option UInt32 → Turn → TokenUsage × Option UInt32}
    {c : Counter} (hstep : ∀ acc turn, acc.1.tokens c < 2 ^ 32 →
      (step acc turn).1.tokens c = (acc.1.tokens c + turn.tokens c) % 2 ^ 32)
    (turns : List Turn) (acc : TokenUsage × Option UInt32) (hacc : acc.1.tokens c < 2 ^ 32) :
    (turns.foldl step acc).1.tokens c =
      (acc.1.tokens c + (turns.map (Turn.tokens c)).sum) % 2 ^ 32 := by
  induction turns generalizing acc with
  | nil => exact (Nat.mod_eq_of_lt hacc).symm
  | cons turn turns ih =>
    have hnext := hstep acc turn hacc
    have hlt : (step acc turn).1.tokens c < 2 ^ 32 := by
      rw [hnext]
      exact Nat.mod_lt _ (Nat.two_pow_pos 32)
    rw [List.foldl_cons, List.map_cons, List.sum_cons, ih _ hlt, hnext, Nat.mod_add_mod,
      Nat.add_assoc]

theorem reconstructUsage_tokens (turns : List Turn) (c : Counter) :
    (reconstructUsage turns).1.tokens c = (turns.map (Turn.tokens c)).sum % 2 ^ 32 := by
  have hzero : (({}, none) : TokenUsage × Option UInt32).1.tokens c = 0 := by cases c <;> rfl
  rw [reconstructUsage, tokens_foldl (c := c) _ turns _ (hzero.trans_lt (Nat.two_pow_pos 32)),
    hzero, Nat.zero_add]
  intro acc turn hacc
  rcases husage : turn.tokenUsage with - | u
  · have hnone : turn.tokens c = 0 := by rw [Turn.tokens, husage, Option.elim_none]
    rw [hnone, Nat.add_zero]
    exact (Nat.mod_eq_of_lt hacc).symm
  · have hsome : turn.tokens c = u.tokens c := by rw [Turn.tokens, husage, Option.elim_some]
    rw [hsome]
    exact TokenUsage.tokens_add _ _ _

namespace Loop

variable {boot : BootEnv} (record : SessionRecord) (store : Store) (log : List Output)

theorem sessionMain_readable (hread : boot.readOk = true) :
    (sessionMain boot record store log).state.turns = store.readable ∧
      (sessionMain boot record store log).state.config.accumulatedUsage =
        (reconstructUsage store.readable.values).1 := by
  unfold sessionMain SessionState.loadTurns
  dsimp only
  simp only [hread, if_true, SessionState.foldl_loadTurn]
  exact ⟨rfl, rfl⟩

theorem sumOf_sessionMain (hread : boot.readOk = true)
    (hfits : ∀ c, store.readable.weight (Turn.tokens c) < 2 ^ 32) :
    (sessionMain boot record store log).state.config.accumulatedUsage.SumOf store.readable := by
  intro c
  rw [(sessionMain_readable record store log hread).2, reconstructUsage_tokens]
  exact Nat.mod_eq_of_lt (hfits c)

end Loop

/-! ### The tokens of the turns -/

theorem tokensAt_readable (l : Loop) (k : ℕ) (c : Counter) :
    tokensAt l.store.readable k c = (l.core.cell k).read.elim 0 (Turn.tokens c) := by
  rw [tokensAt, Std.ExtTreeMap.weightAt, Store.get_readable]
  rfl

theorem TurnCell.tokens_read_write (ok : Bool) (turn : Turn) (cell : TurnCell) (c : Counter) :
    (cell.write ok turn).read.elim 0 (Turn.tokens c) =
      if ok then turn.tokens c else cell.read.elim 0 (Turn.tokens c) := by
  unfold TurnCell.write
  split_ifs <;> rfl

theorem tokensAt_writeTurn (store : Store) (turnId : ℕ) (turn : Turn) (k : ℕ) (c : Counter) :
    tokensAt (store.writeTurn turnId turn).readable k c =
      if k = turnId then turn.tokens c else tokensAt store.readable k c := by
  rw [tokensAt, tokensAt, Std.ExtTreeMap.weightAt, Std.ExtTreeMap.weightAt, Store.get_readable,
    Store.get_readable, Store.readTurn_writeTurn]
  split_ifs <;> rfl

namespace Loop

/-- Commands other than the end of a request keep the tokens of the turns in memory, and write rows
of these turns only, with the same tokens. -/
theorem processCommand_tokens (env : CommandEnv) (command : SessionCommand) (l : Loop)
    (hcommand : ∀ requestId snapshot, command ≠ .requestFinished requestId snapshot) (k : ℕ)
    (c : Counter) :
    tokensAt (l.processCommand env command).1.state.turns k c = tokensAt l.state.turns k c ∧
      (tokensAt (l.processCommand env command).1.store.readable k c =
          tokensAt l.store.readable k c ∨
        l.state.turns[k]?.isSome = true ∧
          tokensAt (l.processCommand env command).1.store.readable k c =
            tokensAt l.state.turns k c) := by
  rw [tokensAt_readable, tokensAt_readable]
  change (((l.processCommand env command).1.core.cell k).turn.elim 0 (Turn.tokens c) =
      (l.core.cell k).turn.elim 0 (Turn.tokens c)) ∧
    (_ ∨ (l.core.cell k).turn.isSome = true ∧ _ = (l.core.cell k).turn.elim 0 (Turn.tokens c))
  rcases l.processCommand_cell env command hcommand k with hcell | ⟨flag, hcell⟩
  · rw [hcell]
    exact ⟨rfl, Or.inl rfl⟩
  · rw [hcell, TurnCell.setUndone_turn]
    unfold TurnCell.setUndone
    cases (l.core.cell k).turn with
    | none => exact ⟨rfl, Or.inl rfl⟩
    | some turn =>
      refine ⟨rfl, ?_⟩
      dsimp only
      rw [TurnCell.tokens_read_write]
      split_ifs
      · exact Or.inr ⟨rfl, rfl⟩
      · exact Or.inl rfl

/-- The end of a request leaves the turns of its snapshot, if the snapshot agrees with the turns that
were in memory before, and the new turns are stored, if their tokens were not stored before. -/
theorem requestFinished_tokens (env : CommandEnv) (requestId : ℕ) (snapshot : SessionSnapshot)
    (l : Loop) (k : ℕ) (c : Counter)
    (hmemory : l.state.turns[k]?.isSome = true →
      tokensAt snapshot.turns k c = tokensAt l.state.turns k c)
    (hstored : tokensAt l.store.readable k c = tokensAt snapshot.turns k c ∨
      l.state.turns[k]? = none ∧ tokensAt l.store.readable k c = 0)
    (hwrite : ∀ turn, snapshot.turns[k]? = some turn → l.state.turns[k]? = none →
      env.turnWrite k = true ∨ turn.tokens c ≤ tokensAt l.store.readable k c) :
    tokensAt (l.processCommand env (.requestFinished requestId snapshot)).1.state.turns k c =
        tokensAt snapshot.turns k c ∧
      tokensAt (l.processCommand env (.requestFinished requestId snapshot)).1.store.readable k c =
        tokensAt snapshot.turns k c := by
  have hcore := l.processCommand_core env (.requestFinished requestId snapshot)
  simp only at hcore
  set l' := (l.processCommand env (.requestFinished requestId snapshot)).1 with hl'
  rw [tokensAt_readable] at hstored ⊢
  simp only [tokensAt_readable] at hwrite
  change ((l'.core.cell k).turn.elim 0 (Turn.tokens c) = _) ∧ _
  change (l.core.cell k).turn.isSome = true → _ = (l.core.cell k).turn.elim 0 (Turn.tokens c)
    at hmemory
  change _ ∨ (l.core.cell k).turn = none ∧ _ at hstored
  change ∀ turn, _ → (l.core.cell k).turn = none → _ at hwrite
  rw [hcore, TurnCore.cell_merge]
  cases hsnap : snapshot.turns[k]? with
  | none =>
    rw [tokensAt_of_none hsnap] at hmemory hstored ⊢
    dsimp only
    constructor
    · cases hturn : (l.core.cell k).turn with
      | none => rfl
      | some turn =>
        rw [hturn] at hmemory
        exact (hmemory rfl).symm
    · rcases hstored with hstored | ⟨-, hstored⟩ <;> exact hstored
  | some turn =>
    rw [tokensAt_of_get hsnap] at hmemory hstored ⊢
    dsimp only
    unfold TurnCell.merge
    cases hturn : (l.core.cell k).turn with
    | none =>
      dsimp only
      rw [TurnCell.tokens_read_write, TurnCell.write_turn]
      refine ⟨rfl, ?_⟩
      split_ifs with hok
      · rfl
      · rcases hwrite turn hsnap hturn with hok' | hle
        · exact absurd hok' hok
        · rcases hstored with hstored | ⟨-, hzero⟩
          · exact hstored
          · exact le_antisymm (hzero.le.trans (Nat.zero_le _)) hle
    | some stateTurn =>
      rw [hturn] at hmemory hstored
      have hread : (l.core.cell k).read.elim 0 (Turn.tokens c) = turn.tokens c :=
        hstored.resolve_right fun h => by cases h.1
      dsimp only
      split_ifs
      · rw [hturn]
        exact ⟨(hmemory rfl).symm, hread⟩
      · exact ⟨rfl, hread⟩

end Loop

end Choreo
