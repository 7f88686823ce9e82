import GrowthMap.Lib.Json
import GrowthMap.Lib.Fallible
import GrowthMap.Lib.IsoTime
import GrowthMap.Payments.Types

/- The observer of finalized Base payments (base_finality.py).

   `observe` makes four RPC calls, one after the other, and assembles the payload
   that is signed as evidence of a payment. An answer is the JSON value the node
   sent; the number of a call is its place in the observation, so that the chain
   may move between two calls. The intent and the candidate are rows of the
   ledger, whose texts for `created_at` are those of `isoformat()`. -/
namespace GrowthMap.Payments

def baseChainIdHex : String := "0x2105"
def transferTopic : String := "0xddf252ad1be2c89b69c2b068fc378daa952ba7f163c4a11628f55a4df523b3ef"

/-- `_TX` -/
def isTx (s : String) : Bool := matchesFixed "0x" 64 isLowerHex s
/-- `_ADDRESS` -/
def isAddress (s : String) : Bool := matchesFixed "0x" 40 isLowerHex s
/-- `_HASH` -/
def isDigest (s : String) : Bool := matchesFixed "" 64 isLowerHex s

/-- `value or ""` under a pattern: a value that is not empty and not a string is a
`TypeError`. -/
def fullmatch (pattern : String → Bool) : Json → Except Err Bool
  | .str s => .ok (pattern s)
  | .null | .bool false | .int 0 | .arr [] | .obj [] => .ok (pattern "")
  | _ => .error (.typeError "expected string or bytes-like object")

def hexValue (c : Char) : Nat := if c.toNat ≤ 57 then c.toNat - 48 else c.toNat - 87

/-- `int(digits, 16)` -/
def fromHex (cs : List Char) : Nat := cs.foldl (fun n c => 16 * n + hexValue c) 0

/-- `0x(?:0|[1-9a-f][0-9a-f]*)` -/
def quantityDigits (s : String) : Option (List Char) :=
  match s.toList with
  | '0' :: 'x' :: digits =>
    if digits = ['0'] ∨ (digits ≠ [] ∧ digits.head? ≠ some '0' ∧ digits.all isLowerHex) then some digits else none
  | _ => none

/-- `_quantity` -/
def quantity : Json → Except Err Nat
  | .str s => match quantityDigits s with
    | some digits => .ok (fromHex digits)
    | none => .error (.value "invalid Base RPC quantity")
  | _ => .error (.value "invalid Base RPC quantity")

/-- `_address_topic` -/
def addressTopic (address : String) : String :=
  String.ofList ('0' :: 'x' :: (List.replicate 24 '0' ++ address.toList.drop 2))

/-- `_strict_dict`: an object with the required fields. -/
def strictDict (value : Json) (required : List String) (label : String) : Except Err (String → Json) :=
  match value with
  | .obj fields =>
    if required.all (fun key => (fields.lookup key).isSome) then .ok (fun key => (fields.lookup key).getD .null)
    else .error (.value ("invalid Base RPC " ++ label))
  | _ => .error (.value ("invalid Base RPC " ++ label))

inductive RpcCall where
  | chainId
  | transactionReceipt (txHash : String)
  | blockByHash (hash : String)
  /-- `eth_getBlockByNumber` with `"finalized"` -/
  | finalizedBlock
  deriving DecidableEq, Repr

/-- The answer to the call at a place of the observation. -/
abbrev Rpc := Nat → RpcCall → Except Err Json

/-- What the provider is built with. -/
structure Observer where
  payee : String
  source : String
  sha256 : String → String

/-- The payload that is signed. -/
structure FinalityPayload where
  outcome : String
  proofHash : String
  nonceHash : String
  orderId : String
  payer : String
  txHash : String
  evidenceHash : String
  source : String
  finalityAt : String
  finalityBasis : String
  network : String
  asset : String
  payee : String
  amountMinor : Int
  deriving DecidableEq, Repr

def unixEpoch : Int := 62135596800

/-- The log is a transfer of `amount` USDC from `payer` to `payee`. -/
def isTransfer (payer payee : String) (amount : Int) (log : String → Json) : Bool :=
  match log "topics", log "data" with
  | .arr [t₀, t₁, t₂], .str data =>
    t₀.is transferTopic && t₁.is (addressTopic payer) && t₂.is (addressTopic payee) &&
      matchesFixed "0x" 64 isLowerHex data && decide ((fromHex (data.toList.drop 2) : Int) = amount)
  | _, _ => false

def countTransfers (payer payee : String) (amount : Int) : List Json → Except Err Nat
  | [] => .ok 0
  | .obj fields :: rest =>
    let log := fun key => (fields.lookup key).getD .null
    (countTransfers payer payee amount rest).map
      (fun n => if (log "address").is (lower baseUsdc) && isTransfer payer payee amount log then n + 1 else n)
  | _ :: _ => .error (.value "invalid Base RPC log")

def bindCandidate (i : Intent) (c : Candidate) : Except Err String :=
  match i.verifiedPayer with
  | none => .error (.value "Base finality candidate binding mismatch")
  | some payer =>
    if c.intentId ≠ i.intentId ∨ c.payer ≠ payer ∨ c.network ≠ baseNetwork ∨ c.amountMinor ≠ i.amountMinor ∨
        isTx c.txHash = false ∨ isAddress payer = false ∨ isDigest c.responseHash = false then
      .error (.value "Base finality candidate binding mismatch")
    else .ok payer

/-- What the observation found about the chain. -/
structure Sighting where
  receipt : Json
  receiptNumber : Nat
  blockHash : Json
  timestamp : Nat
  finalizedHash : Json
  finalizedNumber : Json
  logs : List Json

def logsOf : Json → Except Err (List Json)
  | .arr logs => .ok logs
  | _ => .error (.value "invalid Base RPC receipt")

/-- The four calls, and the checks that tie the answers together. -/
def sight (rpc : Rpc) (txHash : String) : Except Err Sighting := do
  let chain ← rpc 0 .chainId
  if chain.is baseChainIdHex = false then .error (.value "Base finality chain mismatch") else
  let answer ← rpc 1 (.transactionReceipt txHash)
  let receipt ← strictDict answer ["transactionHash", "status", "blockNumber", "blockHash", "logs"] "receipt"
  if (receipt "transactionHash").is txHash = false ∨ (receipt "status").is "0x1" = false then
    .error (.value "Base finality receipt mismatch") else
  let hashed ← fullmatch isTx (receipt "blockHash")
  if hashed = false then .error (.value "Base finality receipt mismatch") else
  let receiptNumber ← quantity (receipt "blockNumber")
  let logs ← logsOf (receipt "logs")
  let hash := match receipt "blockHash" with
    | .str s => s
    | _ => ""
  let canonicalAnswer ← rpc 2 (.blockByHash hash)
  let canonical ← strictDict canonicalAnswer ["hash", "number", "timestamp"] "receipt block"
  let finalizedAnswer ← rpc 3 .finalizedBlock
  let finalized ← strictDict finalizedAnswer ["hash", "number", "timestamp"] "finalized block"
  if (canonical "hash").is hash = false then .error (.value "Base finality block not finalized") else
  let canonicalNumber ← quantity (canonical "number")
  if canonicalNumber ≠ receiptNumber then .error (.value "Base finality block not finalized") else
  let finalizedNumber ← quantity (finalized "number")
  if finalizedNumber < receiptNumber then .error (.value "Base finality block not finalized") else
  let finalizedHashed ← fullmatch isTx (finalized "hash")
  if finalizedHashed = false then .error (.value "Base finality block not finalized") else
  let timestamp ← quantity (canonical "timestamp")
  .ok ⟨answer, receiptNumber, canonical "hash", timestamp, finalized "hash", finalized "number", logs⟩

def observation (c : Candidate) (s : Sighting) : Json :=
  .obj [("candidate_response_hash", .str c.responseHash), ("canonical_block_hash", s.blockHash),
    ("finalized_block_hash", s.finalizedHash), ("finalized_block_number", s.finalizedNumber), ("receipt", s.receipt)]

/-- `datetime.fromtimestamp(timestamp, timezone.utc)`, not before the intent. -/
def finalityTime (i : Intent) (timestamp : Nat) : Except Err IsoTime.DateTime :=
  match IsoTime.ofInstant (seconds (unixEpoch + timestamp)) with
  | none => .error (.value "Base finality timestamp invalid")
  | some time => if seconds (unixEpoch + timestamp) < i.createdAt then .error (.value "Base finality timestamp invalid") else .ok time

/-- `_observe` -/
def observe (o : Observer) (rpc : Rpc) (i : Intent) (c : Candidate) : Except Err FinalityPayload := do
  let payer ← bindCandidate i c
  let s ← sight rpc c.txHash
  let time ← finalityTime i s.timestamp
  let found ← countTransfers payer o.payee i.amountMinor s.logs
  if found ≠ 1 then .error (.value "Base finality USDC transfer mismatch") else
  .ok
    { outcome := "paid", proofHash := i.proofHash, nonceHash := i.nonceHash, orderId := i.orderId, payer := payer,
      txHash := c.txHash, evidenceHash := o.sha256 (observation c s).text, source := o.source, finalityAt := time.isoformat,
      finalityBasis := "base.rpc.finalized_ancestor", network := baseNetwork, asset := lower baseUsdc, payee := o.payee,
      amountMinor := i.amountMinor }

end GrowthMap.Payments
