import GrowthMap.Payments.BaseFinality
import Mathlib.Logic.Relation

/- Whether accepted Base evidence is on the finalized chain.

   Blocks form a tree; the node has a head and a finalized block at every moment,
   and finality only moves forward. The observer learns the receipt's block from
   the first answer that names it, and afterwards asks for that block by its
   hash, which a node answers for a block that has left the chain as well. So the
   height of the finalized block says something about the receipt's block only if
   that block is still below the head when the finalized block is read, and the
   observer does not find that out. -/
namespace GrowthMap.Payments

open Relation Fallible

/-- A tree of blocks. -/
structure BlockTree (B : Type) where
  parent : B → Option B
  number : B → Nat
  hash : B → String
  contains : B → String → Prop
  number_parent : ∀ a b, parent b = some a → number b = number a + 1
  hash_injective : Function.Injective hash

namespace BlockTree

variable {B : Type} (T : BlockTree B)

/-- `a` is an ancestor of `b`, or `b` itself. -/
def Below (a b : B) : Prop := ReflTransGen (fun x y => T.parent x = some y) b a

variable {T} {a b c : B}

theorem Below.trans (h : T.Below a b) (h' : T.Below b c) : T.Below a c := ReflTransGen.trans h' h

theorem Below.number_le (h : T.Below a b) : T.number a ≤ T.number b := by
  induction h with
  | refl => exact le_refl _
  | tail _ hparent =>
    have hnumber := T.number_parent _ _ hparent
    omega

theorem Below.eq_of_number (h : T.Below a b) (hn : T.number b ≤ T.number a) : a = b := by
  rcases ReflTransGen.cases_tail h with rfl | ⟨x, hx, hparent⟩
  · rfl
  · have hnumber := T.number_parent _ _ hparent
    have hle := Below.number_le hx
    omega

theorem Below.of_number_le (ha : T.Below a c) (hb : T.Below b c) (hn : T.number a ≤ T.number b) : T.Below a b := by
  have hunique : Relator.RightUnique (fun x y => T.parent x = some y) := by
    intro x y z hy hz
    exact Option.some.inj (hy.symm.trans hz)
  rcases ReflTransGen.total_of_right_unique hunique ha hb with h | h
  · rw [Below.eq_of_number h hn]
    exact ReflTransGen.refl
  · exact h

end BlockTree

/-- What a node knows at one moment. -/
structure Moment {B : Type} (T : BlockTree B) where
  head : B
  finalized : B
  known : B → Prop
  finalized_below : T.Below finalized head

/-- The chain over time: finalized blocks are never reverted. -/
structure History {B : Type} (T : BlockTree B) where
  moment : Nat → Moment T
  forward : ∀ s t, s ≤ t → T.Below (moment s).finalized (moment t).finalized

variable {B : Type} {T : BlockTree B}

def BlockTree.Describes (T : BlockTree B) (b : B) (answer : Json) : Prop :=
  answer.field "hash" = some (.str (T.hash b)) ∧ ∃ n, answer.field "number" = some n ∧ quantity n = .ok (T.number b)

/-- A true answer at one moment. A receipt is that of a block on the chain, a
block asked for by its hash need only be known. -/
def Moment.Answers (m : Moment T) : RpcCall → Json → Prop
  | .chainId, _ => True
  | .transactionReceipt tx, j => j = .null ∨ ∃ b, T.Below b m.head ∧ T.contains b tx ∧
      j.field "blockHash" = some (.str (T.hash b)) ∧ ∃ n, j.field "blockNumber" = some n ∧ quantity n = .ok (T.number b)
  | .blockByHash h, j => j = .null ∨ ∃ b, m.known b ∧ T.hash b = h ∧ T.Describes b j
  | .finalizedBlock, j => T.Describes m.finalized j

/-! What an accepted observation has checked -/

theorem strictDict_ok {value : Json} {required : List String} {label : String} {dict : String → Json}
    (h : strictDict value required label = .ok dict) :
    ∀ key ∈ required, value.field key = some (dict key) := by
  cases value with
  | obj =>
    simp only [strictDict] at h
    split at h
    · rename_i hall
      cases h
      intro key hkey
      obtain ⟨v, hv⟩ := Option.isSome_iff_exists.mp (List.all_eq_true.mp hall key hkey)
      simp [Json.field, hv]
    · cases h
  | _ => cases h

theorem fullmatch_ok {pattern : String → Bool} {j : Json} (hempty : pattern "" = false)
    (h : fullmatch pattern j = .ok true) : ∃ s, j = .str s := by
  unfold fullmatch at h
  split at h
  · exact ⟨_, rfl⟩
  all_goals first
    | cases h
    | (rw [hempty] at h; cases h)

/-- What the observer has checked when it goes on: the receipt's block is known by
its hash, under the receipt's number, and the finalized block is not lower. -/
theorem sight_ok {rpc : Rpc} {tx : String} {s : Sighting} (h : sight rpc tx = .ok s) :
    ∃ receipt block finalized hash n k, rpc 1 (.transactionReceipt tx) = .ok receipt ∧
      receipt.field "blockHash" = some (.str hash) ∧ receipt.field "blockNumber" = some n ∧
      quantity n = .ok s.receiptNumber ∧ rpc 2 (.blockByHash hash) = .ok block ∧
      rpc 3 .finalizedBlock = .ok finalized ∧ finalized.field "number" = some k ∧
      ∃ m, quantity k = .ok m ∧ s.receiptNumber ≤ m := by
  obtain ⟨chain, -, h⟩ := bind_ok h
  obtain ⟨-, h⟩ := guard_ok h
  obtain ⟨answer, hanswer, h⟩ := bind_ok h
  obtain ⟨receipt, hreceipt, h⟩ := bind_ok h
  obtain ⟨-, h⟩ := guard_ok h
  obtain ⟨hashed, hmatch, h⟩ := bind_ok h
  obtain ⟨hhashed, h⟩ := guard_ok h
  obtain ⟨number, hnumber, h⟩ := bind_ok h
  obtain ⟨logs, -, h⟩ := bind_ok h
  obtain ⟨block, hblock, h⟩ := bind_ok h
  obtain ⟨canonical, -, h⟩ := bind_ok h
  obtain ⟨last, hlast, h⟩ := bind_ok h
  obtain ⟨finalized, hfinalized, h⟩ := bind_ok h
  obtain ⟨-, h⟩ := guard_ok h
  obtain ⟨_, -, h⟩ := bind_ok h
  obtain ⟨-, h⟩ := guard_ok h
  obtain ⟨height, hheight, h⟩ := bind_ok h
  obtain ⟨hreached, h⟩ := guard_ok h
  obtain ⟨_, -, h⟩ := bind_ok h
  obtain ⟨-, h⟩ := guard_ok h
  obtain ⟨_, -, h⟩ := bind_ok h
  cases h
  -- the hash that matched is a string
  obtain ⟨hash, hhash⟩ : ∃ hash, receipt "blockHash" = .str hash := by
    have htrue : hashed = true := by simpa using hhashed
    rw [htrue] at hmatch
    exact fullmatch_ok (by decide) hmatch
  have hfields := strictDict_ok hreceipt
  refine ⟨answer, block, last, hash, receipt "blockNumber", finalized "number", hanswer, ?_, ?_, hnumber, ?_, hlast, ?_,
    height, hheight, not_lt.mp hreached⟩
  · rw [hfields "blockHash" (by simp), hhash]
  · exact hfields "blockNumber" (by simp)
  · simpa only [hhash] using hblock
  · exact strictDict_ok hfinalized "number" (by simp)

/-- The receipt's block is below a finalized block, now or at any other moment,
exactly when it is still below the head at the moment of the last call. -/
theorem accepted_on_finalized_chain {T : BlockTree B} (chain : History T) (time : Nat → Nat)
    (o : Observer) (rpc : Rpc) (htrue : ∀ k call answer, rpc k call = .ok answer → (chain.moment (time k)).Answers call answer)
    (i : Intent) (c : Candidate) (payload : FinalityPayload) (haccepts : observe o rpc i c = .ok payload) :
    ∃ b, (∃ receipt, rpc 1 (.transactionReceipt c.txHash) = .ok receipt ∧
        receipt.field "blockHash" = some (.str (T.hash b))) ∧ T.contains b c.txHash ∧
      ((∃ t, T.Below b (chain.moment t).finalized) ↔ T.Below b (chain.moment (time 3)).head) := by
  obtain ⟨payer, -, h⟩ := Fallible.bind_eq_ok.mp haccepts
  obtain ⟨s, hsight, -⟩ := Fallible.bind_eq_ok.mp h
  obtain ⟨receipt, block, finalized, hash, n, k, hreceipt, hhash, hnumber, hn, -, hfinalized, hk, m, hm, hle⟩ := sight_ok hsight
  -- the block of the receipt
  obtain ⟨b, hcontains, hb, hbn⟩ : ∃ b, T.contains b c.txHash ∧ T.hash b = hash ∧ T.number b = s.receiptNumber := by
    rcases htrue 1 _ _ hreceipt with rfl | ⟨b, -, hcontains, hb, n', hn', hq⟩
    · cases hhash
    · rw [hhash] at hb
      rw [hnumber] at hn'
      cases hn'
      rw [hn] at hq
      exact ⟨b, hcontains, (Json.str.inj (Option.some.inj hb)).symm, (Except.ok.inj hq).symm⟩
  have hheight : T.number (chain.moment (time 3)).finalized = m := by
    obtain ⟨-, k', hk', hq⟩ := htrue 3 _ _ hfinalized
    rw [hk] at hk'
    cases hk'
    rw [hm] at hq
    exact (Except.ok.inj hq).symm
  refine ⟨b, ⟨receipt, hreceipt, by rw [hhash, hb]⟩, hcontains, ?_, ?_⟩
  · rintro ⟨t, ht⟩
    refine BlockTree.Below.trans ?_ (chain.moment (time 3)).finalized_below
    rcases le_total t (time 3) with hearlier | hlater
    · exact ht.trans (chain.forward t (time 3) hearlier)
    · exact ht.of_number_le (chain.forward (time 3) t hlater) (by omega)
  · intro hhead
    exact ⟨time 3, hhead.of_number_le (chain.moment (time 3)).finalized_below (by omega)⟩

/-! A chain that forks -/

inductive Fork where
  | genesis | ours | theirs
  deriving DecidableEq, Repr

def Fork.mark : Fork → Char
  | .genesis => '0'
  | .ours => '1'
  | .theirs => '2'

/-- `0x` and 64 times the same digit. -/
def repeated (c : Char) (n : Nat) : String := String.ofList ('0' :: 'x' :: List.replicate n c)

def sampleTx : String := repeated 'a' 64
def samplePayer : String := repeated 'b' 40
def samplePayee : String := repeated 'c' 40

/-- Two blocks on the first one; the payment is in `ours`. -/
def fork : BlockTree Fork where
  parent
    | .genesis => none
    | _ => some .genesis
  number
    | .genesis => 0
    | _ => 1
  hash b := repeated b.mark 64
  contains b tx := b = .ours ∧ tx = sampleTx
  number_parent := by
    intro a b h
    cases b <;> cases h <;> rfl
  hash_injective := by
    intro a b h
    cases a <;> cases b <;> first | rfl | exact absurd h (by decide)

theorem fork_genesis_below (b : Fork) : fork.Below .genesis b := by
  cases b with
  | genesis => exact ReflTransGen.refl
  | ours => exact ReflTransGen.single rfl
  | theirs => exact ReflTransGen.single rfl

/-- The head is `ours` until the third call; from then on the block `last` is the
head and is final. -/
def forkHistory (last : Fork) : History fork where
  moment t :=
    if t ≤ 2 then ⟨.ours, .genesis, fun _ => True, fork_genesis_below _⟩
    else ⟨last, last, fun _ => True, ReflTransGen.refl⟩
  forward := by
    intro s t hst
    by_cases hs : s ≤ 2
    · rw [if_pos hs]
      exact fork_genesis_below _
    · rw [if_neg hs, if_neg (by omega)]
      exact ReflTransGen.refl

def hexNumber (b : Fork) : String := if b = .genesis then "0x0" else "0x1"

def blockAnswer (b : Fork) : Json :=
  .obj [("hash", .str (fork.hash b)), ("number", .str (hexNumber b)), ("timestamp", .str "0x69000000")]

def transferLog : Json :=
  .obj [("address", .str (lower baseUsdc)),
    ("topics", .arr [.str transferTopic, .str (addressTopic samplePayer), .str (addressTopic samplePayee)]),
    ("data", .str (String.ofList ('0' :: 'x' :: (List.replicate 63 '0' ++ ['5']))))]

def receiptAnswer : Json :=
  .obj [("transactionHash", .str sampleTx), ("status", .str "0x1"), ("blockNumber", .str "0x1"),
    ("blockHash", .str (fork.hash .ours)), ("logs", .arr [transferLog])]

def forkRpc (last : Fork) : Rpc := fun k call => .ok (match call with
  | .chainId => .str baseChainIdHex
  | .transactionReceipt tx => if k ≤ 2 ∧ tx = sampleTx then receiptAnswer else .null
  | .blockByHash h => if h = fork.hash .ours then blockAnswer .ours else .null
  | .finalizedBlock => blockAnswer (if k ≤ 2 then .genesis else last))

theorem fork_describes (b : Fork) : fork.Describes b (blockAnswer b) := by
  refine ⟨rfl, .str (hexNumber b), rfl, ?_⟩
  cases b <;> rfl

theorem forkRpc_true (last : Fork) (k : Nat) (call : RpcCall) (answer : Json) (h : forkRpc last k call = .ok answer) :
    ((forkHistory last).moment k).Answers call answer := by
  cases h
  cases call with
  | chainId => trivial
  | transactionReceipt tx =>
    by_cases hk : k ≤ 2 ∧ tx = sampleTx
    · simp only [hk, and_self, if_true]
      refine .inr ⟨.ours, ?_, ⟨rfl, rfl⟩, rfl, .str "0x1", rfl, rfl⟩
      simp only [forkHistory, hk.1, if_true]
      exact ReflTransGen.refl
    · simp only [hk, if_false]
      exact .inl rfl
  | blockByHash hash =>
    by_cases hh : hash = fork.hash .ours
    · simp only [hh, if_true]
      refine .inr ⟨.ours, ?_, rfl, fork_describes _⟩
      by_cases hk : k ≤ 2 <;> simp [forkHistory, hk]
    · simp only [hh, if_false]
      exact .inl rfl
  | finalizedBlock =>
    by_cases hk : k ≤ 2
    · simp only [Moment.Answers, forkHistory, hk, if_true]
      exact fork_describes _
    · simp only [Moment.Answers, forkHistory, hk, if_false]
      exact fork_describes _

def sampleObserver : Observer := ⟨samplePayee, "base.rpc.official", fun _ => String.ofList (List.replicate 64 'd')⟩

def sampleIntent : Intent :=
  { intentId := "i", orderId := "o", proofHash := "p", nonceHash := "n", amountMinor := 5, currency := "USDC",
    reservedOrdinal := 1, leaseExpiresAt := 0, state := .ambiguous, txHash := none, evidenceHash := none,
    evidenceSource := none, finalityAt := none, reconciledBy := none, createdAt := 0, updatedAt := 0,
    evidenceBinding := none, verifiedPayer := some samplePayer, settledPayer := none, finalityBasis := none }

def sampleCandidate : Candidate :=
  ⟨"i", sampleTx, samplePayer, baseNetwork, 5, "x402", 0, String.ofList (List.replicate 64 'e')⟩

theorem sampleIntent_observed (last : Fork) (hlast : last ≠ .genesis) :
    ∃ payload, observe sampleObserver (forkRpc last) sampleIntent sampleCandidate = .ok payload := by
  have hbound : bindCandidate sampleIntent sampleCandidate = .ok samplePayer := by rfl
  have hsight : sight (forkRpc last) sampleCandidate.txHash = .ok ⟨receiptAnswer, 1, .str (fork.hash .ours), 0x69000000,
      .str (fork.hash last), .str "0x1", [transferLog]⟩ := by
    cases last with
    | genesis => exact absurd rfl hlast
    | ours => rfl
    | theirs => rfl
  have hfound : countTransfers samplePayer sampleObserver.payee sampleIntent.amountMinor [transferLog] = .ok 1 := by rfl
  obtain ⟨time, htime⟩ := @IsoTime.ofInstant_isSome (seconds (unixEpoch + ((0x69000000 : Nat) : Int))) (by decide) (by decide)
  have hlate : ¬ seconds (unixEpoch + ((0x69000000 : Nat) : Int)) < sampleIntent.createdAt := by decide
  have hfinality : finalityTime sampleIntent 0x69000000 = .ok time := by
    unfold finalityTime
    rw [htime]
    exact if_neg hlate
  rw [observe, hbound, ok_bind, hsight, ok_bind, hfinality, ok_bind]
  rw [hfound, ok_bind, if_neg (fun h => h rfl)]
  exact ⟨_, rfl⟩

/-- Where the payment's block stays on the chain it is below the finalized one. -/
theorem accepted_on_finalized_chain_sample :
    ∃ t, fork.Below .ours ((forkHistory .ours).moment t).finalized := by
  obtain ⟨payload, haccepts⟩ := sampleIntent_observed .ours (by decide)
  obtain ⟨b, -, ⟨rfl, -⟩, hiff⟩ := accepted_on_finalized_chain (forkHistory .ours) (fun k => k) sampleObserver (forkRpc .ours)
    (fun k call answer h => forkRpc_true .ours k call answer h) sampleIntent sampleCandidate payload haccepts
  exact hiff.mpr ReflTransGen.refl

/-- Both blocks are known and of one height, so the observer accepts the payment of
the one although the other is final. -/
theorem orphaned_payment_accepted :
    (∀ k call answer, forkRpc .theirs k call = .ok answer → ((forkHistory .theirs).moment k).Answers call answer) ∧
      (∃ payload, observe sampleObserver (forkRpc .theirs) sampleIntent sampleCandidate = .ok payload) ∧
      fork.contains .ours sampleCandidate.txHash ∧ ¬ ∃ t, fork.Below .ours ((forkHistory .theirs).moment t).finalized := by
  refine ⟨forkRpc_true .theirs, sampleIntent_observed .theirs (by decide), ⟨rfl, rfl⟩, ?_⟩
  rintro ⟨t, ht⟩
  by_cases hk : t ≤ 2
  · simp only [forkHistory, hk, if_true] at ht
    exact absurd ht.number_le (by decide)
  · simp only [forkHistory, hk, if_false] at ht
    have heq := ht.eq_of_number (by decide)
    cases heq

end GrowthMap.Payments
