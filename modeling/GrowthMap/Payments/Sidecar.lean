import GrowthMap.Lib.Ordered
import GrowthMap.Payments.CanonicalJson

/- The authenticated sidecar server (sidecar_server.py).

   `serve_once` reads one request, checks its MAC, consumes its nonce and calls the
   handler; whatever fails on the way is answered with a refusal. The refusal repeats
   the operation and the nonce of the document, authenticated or not, and looks at them
   with a regular expression: on a value that is neither a string nor false as a truth
   value that raises, in the handler of the failure, and `serve_once` with it. There is
   no other way to bring it down (`serve_once_iff`). The handler only sees what the key
   signed, and what it saw once it sees again only after `maximum` other nonces
   (`dispatched_once`).

   The reader of documents is any function: what it makes of the bytes decides, not how.
   The digest is any function, and the handler any that answers or raises. -/
namespace GrowthMap.Sidecar
open JsonGrammar StrictJson PyJson Ordered

/-! The regular expressions -/

def isLower (n : Nat) : Bool := unit 'a' ≤ n && n ≤ unit 'z'

/-- `[a-z][a-z0-9_.-]{2,63}` -/
def isOperation : Text → Bool
  | [] => false
  | a :: s => isLower a && s.all (fun n => isLower n || isDigit n || n == unit '_' || n == unit '.' || n == unit '-') &&
    decide (2 ≤ s.length ∧ s.length ≤ 63)

/-- `[a-z][a-z0-9_-]{2,31}` -/
def isService : Text → Bool
  | [] => false
  | a :: s => isLower a && s.all (fun n => isLower n || isDigit n || n == unit '_' || n == unit '-') &&
    decide (2 ≤ s.length ∧ s.length ≤ 31)

/-- `[a-f0-9]{64}`: `_NONCE`, and `_MAC` -/
def isNonce (s : Text) : Bool :=
  s.all (fun n => (unit 'a' ≤ n && n ≤ unit 'f') || isDigit n) && decide (s.length = 64)

/-- `digest.hex()` -/
def hexdigest (digest : Bytes) : Text :=
  digest.flatMap (fun b => [unit (Json.hexDigit (b.toNat / 16)), unit (Json.hexDigit (b.toNat % 16))])

/-! The server -/

structure Server where
  service : Text
  key : Bytes
  expectedPeerUid : Nat
  /-- The size of the replay window. -/
  maximum : Nat
  service_valid : isService service = true
  maximum_valid : 128 ≤ maximum ∧ maximum ≤ 65536

/-- A handler with its state; `none` where `dispatch` raises, or its result cannot be written. -/
structure Handler (H : Type) where
  operations : List Text
  dispatch : H → Text → List (Text × PyValue) → H × Option PyValue

structure State (H : Type) where
  window : Dict Text Unit
  handler : H

/-- A request that was authenticated. -/
structure Request where
  operation : Text
  nonce : Text
  arguments : List (Text × PyValue)

/-- `SO_PEERCRED`, where there is one, and the bytes up to the end of the stream. -/
structure Connection where
  uid : Option Nat
  bytes : Bytes

/-- What one call did: what it sent, if it raised, what it gave to the handler. -/
structure Served where
  responses : List Bytes
  raised : Bool
  dispatched : List Request

def maxRequest : Nat := 32768
def maxResponse : Nat := 32768

def requestDomain : Bytes := "growthmap-unix-request-v1\x00".toUTF8.toList
def responseDomain : Bytes := "growthmap-unix-response-v1\x00".toUTF8.toList

/-- `ReplayWindow.consume`; `none` is "sidecar request replayed". -/
def consume (maximum : Nat) (window : Dict Text Unit) (nonce : Text) : Option (Dict Text Unit) :=
  if (window.get nonce).isSome then none
  else
    let window := window.setLast nonce ()
    some (if maximum < window.size then window.drop 1 else window)

section Truth

variable (floats : Floats)

/-- `bool(value)` -/
def truthy : PyValue → Bool
  | .constant w => w ≠ units "null" && w ≠ units "false"
  | .int n => n ≠ 0
  | .float lexeme => !floats.isZero lexeme
  | .str s => !s.isEmpty
  | .list items => !items.isEmpty
  | .dict items => !items.isEmpty

/-- `value if pattern.fullmatch(value or "") else default`; `none` is a `TypeError`. -/
def choose (pattern : Text → Bool) (default : Text) (v : PyValue) : Option Text :=
  match if truthy floats v then v else .str [] with
  | .str s => some (if pattern s then s else default)
  | _ => none

end Truth

section Serve

variable {H : Type} (loads : Bytes → Option PyValue) (floats : Floats) (hmac : Bytes → Bytes → Bytes) (S : Server)
  (handler : Handler H)

def core (operation nonce : Text) (arguments : PyValue) : List (Text × PyValue) :=
  [(units "service", .str S.service), (units "operation", .str operation), (units "nonce", .str nonce), (units "arguments", arguments)]

def requestKeys : List Text := [units "service", units "operation", units "nonce", units "arguments", units "mac"]

local instance lawfulKey : LawfulBEq Text := inferInstance

/-- `_authenticate_request`; `none` where it raises. -/
def authenticateRequest : PyValue → Option Request
  | .dict items =>
    if (items.map Prod.fst).all (· ∈ requestKeys) && requestKeys.all (· ∈ items.map Prod.fst) then
      match items.lookup (units "service"), items.lookup (units "operation"), items.lookup (units "nonce"),
        items.lookup (units "arguments"), items.lookup (units "mac") with
      | some (.str service), some (.str operation), some (.str nonce), some (.dict arguments), some (.str mac) =>
        if service = S.service ∧ isOperation operation ∧ operation ∈ handler.operations ∧ isNonce nonce ∧ isNonce mac then do
          let message ← canonical floats (.dict (core S operation nonce (.dict arguments)))
          if mac = hexdigest (hmac S.key (requestDomain ++ message)) then some ⟨operation, nonce, arguments⟩ else none
        else none
      | _, _, _, _, _ => none
    else none
  | _ => none

/-- `_response` -/
def response (operation nonce : Text) (ok : Bool) (result : PyValue) : Option Bytes := do
  let core := [(units "service", .str S.service), (units "operation", .str operation), (units "nonce", .str nonce),
    (units "ok", .constant (units (if ok then "true" else "false"))), (units "result", result)]
  let message ← canonical floats (.dict core)
  canonical floats (.dict (core ++ [(units "mac", .str (hexdigest (hmac S.key (responseDomain ++ message))))]))

/-- The `try` block, once the request is read. -/
def attempt (s : State H) (raw : Bytes) : State H × List Request × Option Bytes :=
  match (loads raw).bind (authenticateRequest floats hmac S handler) with
  | none => (s, [], none)
  | some r =>
    match consume S.maximum s.window r.nonce with
    | none => (s, [], none)
    | some window =>
      let (h, result) := handler.dispatch s.handler r.operation r.arguments
      (⟨window, h⟩, [r], result.bind (response floats hmac S r.operation r.nonce true))

/-- `request.get(key, default) if type(request) is dict else default` -/
def fieldOr (key default : Text) : Option PyValue → PyValue
  | some (.dict items) => (items.lookup key).getD (.str default)
  | _ => .str default

/-- The `except` block; `none` where it raises itself. -/
def refusal (raw : Bytes) : Option Bytes := do
  let invalid := units "invalid"
  let zeros := List.replicate 64 (unit '0')
  let operation ← choose floats isOperation invalid (fieldOr (units "operation") invalid (loads raw))
  let nonce ← choose floats isNonce zeros (fieldOr (units "nonce") zeros (loads raw))
  response floats hmac S operation nonce false (.constant (units "null"))

/-- `if len(response)<=_MAX_RESPONSE:connection.sendall(response)` -/
def sendAll (response : Bytes) : List Bytes := if response.length ≤ maxResponse then [response] else []

def serveOnce (s : State H) (connection : Connection) : State H × Served :=
  if connection.uid.any (· ≠ S.expectedPeerUid) then (s, ⟨[], false, []⟩)
  else
    let raw := connection.bytes.take (maxRequest + 1)
    if raw.isEmpty || maxRequest < raw.length then (s, ⟨[], false, []⟩)
    else
      match attempt loads floats hmac S handler s raw with
      | (s, calls, some response) => (s, ⟨sendAll response, false, calls⟩)
      | (s, calls, none) =>
        match refusal loads floats hmac S raw with
        | some response => (s, ⟨sendAll response, false, calls⟩)
        | none => (s, ⟨[], true, calls⟩)

def dispatched : State H → List Connection → List Request
  | _, [] => []
  | s, c :: connections =>
    let (s, served) := serveOnce loads floats hmac S handler s c
    served.dispatched ++ dispatched s connections

end Serve

/-! The replay window -/

section Window

variable {maximum : Nat} {window window' : Dict Text Unit} {nonce k : Text} {since : List Text}

theorem consume_eq (h : consume maximum window nonce = some window') :
    window.get nonce = none ∧ ∃ n, window' = (window.setLast nonce ()).drop n ∧
      (n = 0 ∧ window.size < maximum ∨ n = 1 ∧ maximum ≤ window.size) := by
  rw [consume] at h
  split at h
  · cases h
  · rename_i hnew
    have hnone : window.get nonce = none := Option.not_isSome_iff_eq_none.mp hnew
    have hsize : (window.setLast nonce ()).size = window.size + 1 := by
      rw [Dict.size, Dict.setLast_of_none hnone, List.length_append, List.length_singleton, Dict.size]
    refine ⟨hnone, ?_⟩
    dsimp only at h
    split at h
    · exact ⟨1, (Option.some.inj h).symm, .inr ⟨rfl, by omega⟩⟩
    · refine ⟨0, (Option.some.inj h).symm, .inl ⟨rfl, by omega⟩⟩

theorem consume_size (h : consume maximum window nonce = some window') (hsize : window.size ≤ maximum) : window'.size ≤ maximum := by
  obtain ⟨hnone, n, rfl, hn⟩ := consume_eq h
  rw [Dict.size_drop, Dict.size, Dict.setLast_of_none hnone, List.length_append, List.length_singleton]
  rw [Dict.size] at hsize hn
  omega

/-- What is consumed stays while fewer than `maximum` others are, and is consumed no second time. -/
theorem consume_other (h : consume maximum window nonce = some window') (hk : window.Holds k () since) :
    nonce ≠ k ∧ ((nonce :: since).dedup.length < maximum → window'.Holds k () (nonce :: since)) := by
  obtain ⟨hnone, n, rfl, hn⟩ := consume_eq h
  have hne : nonce ≠ k := by
    rintro rfl
    rw [hk.get] at hnone
    cases hnone
  refine ⟨hne, fun hfew => (hk.setLast hne ()).drop ?_⟩
  rw [Dict.size, Dict.setLast_of_none hnone, List.length_append, List.length_singleton]
  rw [Dict.size] at hn
  omega

theorem consume_own (h : consume maximum window nonce = some window') (hpos : 0 < maximum) : window'.Holds nonce () [] := by
  obtain ⟨hnone, n, rfl, hn⟩ := consume_eq h
  refine (Dict.holds_setLast window nonce ()).drop ?_
  rw [Dict.size, Dict.setLast_of_none hnone, List.length_append, List.length_singleton, List.dedup_nil, List.length_nil]
  rw [Dict.size] at hn
  omega

end Window

section Calls

variable {H : Type} {loads : Bytes → Option PyValue} {floats : Floats} {hmac : Bytes → Bytes → Bytes} {S : Server}
  {handler : Handler H} {s s' : State H} {served : Served} {c : Connection}

/-! The handler -/

/-- The request as the key signed it. -/
structure Authentic (loads : Bytes → Option PyValue) (floats : Floats) (hmac : Bytes → Bytes → Bytes) (S : Server)
    (raw : Bytes) (r : Request) : Prop where
  signed : ∃ items message, loads raw = some (.dict items) ∧
    items.lookup (units "service") = some (.str S.service) ∧ items.lookup (units "operation") = some (.str r.operation) ∧
    items.lookup (units "nonce") = some (.str r.nonce) ∧ items.lookup (units "arguments") = some (.dict r.arguments) ∧
    canonical floats (.dict (core S r.operation r.nonce (.dict r.arguments))) = some message ∧
    items.lookup (units "mac") = some (.str (hexdigest (hmac S.key (requestDomain ++ message))))

variable {r : Request} {pattern : Text → Bool} {v : PyValue} {t : Text}

theorem authenticate_authentic {raw : Bytes}
    (h : (loads raw).bind (authenticateRequest floats hmac S handler) = some r) : Authentic loads floats hmac S raw r := by
  obtain ⟨request, hload, h⟩ := Option.bind_eq_some_iff.mp h
  unfold authenticateRequest at h
  split at h
  · rename_i items
    split at h
    · split at h
      · rename_i service operation nonce arguments mac hservice hoperation hnonce harguments hmacField
        split at h
        · rename_i hchecks
          obtain ⟨message, hmessage, h⟩ := Option.bind_eq_some_iff.mp h
          split at h
          · rename_i hmac
            cases h
            exact ⟨items, message, hload, hchecks.1 ▸ hservice, hoperation, hnonce, harguments, hmessage, hmac ▸ hmacField⟩
          · cases h
        · cases h
      · cases h
    · cases h
  · cases h

variable (loads floats hmac S handler) in
theorem attempt_cases (s : State H) (raw : Bytes) :
    let (s', calls, answer) := attempt loads floats hmac S handler s raw
    calls = [] ∧ s' = s ∧ answer = none ∨
      ∃ r, calls = [r] ∧ Authentic loads floats hmac S raw r ∧ consume S.maximum s.window r.nonce = some s'.window := by
  rw [attempt]
  cases hauth : (loads raw).bind (authenticateRequest floats hmac S handler) with
  | none => exact .inl ⟨rfl, rfl, rfl⟩
  | some r =>
    dsimp only
    cases hconsume : consume S.maximum s.window r.nonce with
    | none => exact .inl ⟨rfl, rfl, rfl⟩
    | some => exact .inr ⟨r, rfl, authenticate_authentic hauth, hconsume⟩

def Connection.raw (c : Connection) : Bytes := c.bytes.take (maxRequest + 1)

theorem serveOnce_cases (h : serveOnce loads floats hmac S handler s c = (s', served)) :
    served.dispatched = [] ∧ s' = s ∨
      ∃ r, served.dispatched = [r] ∧ Authentic loads floats hmac S c.raw r ∧ consume S.maximum s.window r.nonce = some s'.window := by
  have hcases := attempt_cases loads floats hmac S handler s c.raw
  rw [serveOnce] at h
  split at h
  · cases h
    exact .inl ⟨rfl, rfl⟩
  · dsimp only at h
    split at h
    · cases h
      exact .inl ⟨rfl, rfl⟩
    · rw [← Connection.raw] at h
      split at h
      · rename_i hattempt
        rw [hattempt] at hcases
        cases h
        rcases hcases with ⟨rfl, rfl, -⟩ | hcall
        · exact .inl ⟨rfl, rfl⟩
        · exact .inr hcall
      · rename_i after calls hattempt
        rw [hattempt] at hcases
        have hsame : s' = after ∧ served.dispatched = calls := by
          split at h
          · cases h
            exact ⟨rfl, rfl⟩
          · cases h
            exact ⟨rfl, rfl⟩
        rw [hsame.1, hsame.2]
        rcases hcases with ⟨rfl, rfl, -⟩ | hcall
        · exact .inl ⟨rfl, rfl⟩
        · exact .inr hcall

variable (loads floats hmac S handler) in
theorem serveOnce_step (s : State H) (c : Connection) :
    (serveOnce loads floats hmac S handler s c).2.dispatched = [] ∧ (serveOnce loads floats hmac S handler s c).1 = s ∨
      ∃ r, (serveOnce loads floats hmac S handler s c).2.dispatched = [r] ∧ Authentic loads floats hmac S c.raw r ∧
        consume S.maximum s.window r.nonce = some (serveOnce loads floats hmac S handler s c).1.window :=
  serveOnce_cases rfl

/-! Runs -/

theorem dispatched_cons (s : State H) (c : Connection) (cs : List Connection) :
    dispatched loads floats hmac S handler s (c :: cs) =
      (serveOnce loads floats hmac S handler s c).2.dispatched ++
        dispatched loads floats hmac S handler (serveOnce loads floats hmac S handler s c).1 cs := rfl

/-- While a nonce is in the window no request with it is given to the handler. -/
theorem not_again {k : Text} (cs : List Connection) : ∀ (s : State H) (since : List Text) (mid after : List Request) (r : Request),
    s.window.Holds k () since → s.window.size ≤ S.maximum → dispatched loads floats hmac S handler s cs = mid ++ r :: after →
      ((mid.map Request.nonce).filter (· ≠ k) ++ since).dedup.length < S.maximum → r.nonce ≠ k := by
  induction cs with
  | nil =>
    intro s since mid after r _ _ hrun _
    cases mid <;> cases hrun
  | cons c cs ih =>
    intro s since mid after r hholds hsize hrun hfew
    rw [dispatched_cons] at hrun
    rcases serveOnce_step loads floats hmac S handler s c with
      ⟨hnone, hstate⟩ | ⟨first, hone, -, hconsume⟩
    · rw [hnone, hstate, List.nil_append] at hrun
      exact ih s since mid after r hholds hsize hrun hfew
    · obtain ⟨hne, hkeep⟩ := consume_other hconsume hholds
      rw [hone, List.singleton_append] at hrun
      cases mid with
      | nil =>
        rw [List.nil_append] at hrun
        cases hrun
        exact hne
      | cons m mid =>
        rw [List.cons_append] at hrun
        obtain ⟨rfl, hrest⟩ := List.cons.inj hrun
        rw [List.map_cons, List.filter_cons_of_pos (by simpa using hne)] at hfew
        have hsub : ∀ j, j ∈ (mid.map Request.nonce).filter (· ≠ k) ++ first.nonce :: since →
            j ∈ first.nonce :: (mid.map Request.nonce).filter (· ≠ k) ++ since := by
          intro j hj
          simp only [List.mem_append, List.mem_cons, List.cons_append] at hj ⊢
          tauto
        refine ih _ (first.nonce :: since) mid after r (hkeep ?_) (consume_size hconsume hsize) hrest
          ((Dict.dedup_length_le hsub).trans_lt hfew)
        refine (Dict.dedup_length_le ?_).trans_lt hfew
        intro j hj
        exact hsub j (List.mem_append_right _ hj)

/-- Between two requests with one nonce the handler is given at least `maximum` others. -/
theorem dispatched_once (cs : List Connection) : ∀ (s : State H) (before since after : List Request) (r r' : Request),
    s.window.size ≤ S.maximum → dispatched loads floats hmac S handler s cs = before ++ r :: (since ++ r' :: after) →
      ((since.map Request.nonce).filter (· ≠ r.nonce)).dedup.length < S.maximum → r'.nonce ≠ r.nonce := by
  induction cs with
  | nil =>
    intro s before since after r r' _ hrun _
    cases before <;> cases hrun
  | cons c cs ih =>
    intro s before since after r r' hsize hrun hfew
    rw [dispatched_cons] at hrun
    rcases serveOnce_step loads floats hmac S handler s c with
      ⟨hnone, hstate⟩ | ⟨first, hone, -, hconsume⟩
    · rw [hnone, hstate, List.nil_append] at hrun
      exact ih s before since after r r' hsize hrun hfew
    · have hsize' := consume_size hconsume hsize
      rw [hone, List.singleton_append] at hrun
      cases before with
      | nil =>
        rw [List.nil_append] at hrun
        obtain ⟨rfl, hrest⟩ := List.cons.inj hrun
        have hpos : 0 < S.maximum := by
          have := S.maximum_valid.1
          omega
        exact not_again cs _ [] since after r' (consume_own hconsume hpos) hsize' hrest (by rwa [List.append_nil])
      | cons b before =>
        rw [List.cons_append] at hrun
        exact ih _ before since after r r' hsize' (List.cons.inj hrun).2 hfew

/-! The refusal -/

def HarmlessField (floats : Floats) (items : List (Text × PyValue)) (key : Text) : Prop :=
  ∀ v, items.lookup key = some v → truthy floats v = true → ∃ t, v = .str t

def Harmless (loads : Bytes → Option PyValue) (floats : Floats) (c : Connection) : Prop :=
  c.raw ≠ [] → c.raw.length ≤ maxRequest → ∀ items, loads c.raw = some (.dict items) →
    HarmlessField floats items (units "operation") ∧ HarmlessField floats items (units "nonce")

theorem choose_isSome {default : Text} :
    (choose floats pattern default v).isSome = true ↔ (truthy floats v = true → ∃ t, v = .str t) := by
  rw [choose]
  by_cases hv : truthy floats v = true
  · rw [if_pos hv]
    cases v <;> simp [hv]
  · rw [if_neg hv]
    simp [hv]

theorem truthy_default (floats : Floats) (default : Text) : truthy floats (.str default) = true → ∃ t, PyValue.str default = .str t :=
  fun _ => ⟨default, rfl⟩

theorem fieldOr_harmless {key default : Text} {items : List (Text × PyValue)} :
    (truthy floats (fieldOr key default (some (.dict items))) = true → ∃ t, fieldOr key default (some (.dict items)) = .str t) ↔
      HarmlessField floats items key := by
  rw [fieldOr, HarmlessField]
  cases items.lookup key with
  | none => simp
  | some => simp

theorem fieldOr_other {key default : Text} {request : Option PyValue} (h : ∀ items, request ≠ some (.dict items)) :
    fieldOr key default request = .str default := by
  unfold fieldOr
  split
  · exact absurd rfl (h _)
  · rfl

theorem ascii_of_isOperation (h : isOperation t = true) : Ascii t := by
  cases t with
  | nil => exact ascii_nil
  | cons =>
    simp only [isOperation, isLower, isDigit, unit, Bool.and_eq_true, List.all_eq_true, Bool.or_eq_true, decide_eq_true_eq,
      beq_iff_eq] at h
    refine .cons ?_ ?_
    · exact lt_of_le_of_lt h.1.1.2 (by decide)
    · intro n hn
      have hclass := h.1.2 n hn
      simp only [Char.reduceToNat] at hclass
      omega

theorem ascii_of_isNonce (h : isNonce t = true) : Ascii t := by
  simp only [isNonce, isDigit, unit, Bool.and_eq_true, List.all_eq_true, Bool.or_eq_true, decide_eq_true_eq] at h
  intro n hn
  have hclass := h.1 n hn
  simp only [Char.reduceToNat] at hclass
  omega

theorem ascii_of_isService (h : isService t = true) : Ascii t := by
  cases t with
  | nil => exact ascii_nil
  | cons =>
    simp only [isService, isLower, isDigit, unit, Bool.and_eq_true, List.all_eq_true, Bool.or_eq_true, decide_eq_true_eq,
      beq_iff_eq] at h
    refine .cons ?_ ?_
    · exact lt_of_le_of_lt h.1.1.2 (by decide)
    · intro n hn
      have hclass := h.1.2 n hn
      simp only [Char.reduceToNat] at hclass
      omega

theorem hexdigest_ascii (digest : Bytes) : Ascii (hexdigest digest) := by
  intro n hn
  obtain ⟨b, -, hn⟩ := List.mem_flatMap.mp hn
  have hb := b.toNat_lt
  have hhigh : b.toNat / 16 < 16 := by omega
  have hlow : b.toNat % 16 < 16 := by omega
  exact Ascii.cons (hexDigit_ascii hhigh) (.cons (hexDigit_ascii hlow) ascii_nil) n hn

theorem choose_ascii {default : Text} (hpattern : ∀ t, pattern t = true → Ascii t)
    (hdefault : Ascii default) (h : choose floats pattern default v = some t) : Ascii t := by
  rw [choose] at h
  split at h
  · rename_i u hu
    rw [← Option.some.inj h]
    split
    · exact hpattern u ‹_›
    · exact hdefault
  · cases h

variable (floats hmac S) in
/-- A refusal can always be written. -/
theorem response_refusal {operation nonce : Text} (hoperation : Ascii operation) (hnonce : Ascii nonce) :
    (response floats hmac S operation nonce false (.constant (units "null"))).isSome = true := by
  have hcore : ∀ item ∈ ([(units "service", .str S.service), (units "operation", .str operation), (units "nonce", .str nonce),
      (units "ok", .constant (units (if false then "true" else "false"))), (units "result", .constant (units "null"))] : List (Text × PyValue)),
      Ascii item.1 ∧ Plain item.2 := by
    intro item hitem
    simp only [List.mem_cons, List.not_mem_nil, or_false] at hitem
    rcases hitem with rfl | rfl | rfl | rfl | rfl
    · exact ⟨show Ascii (units "service") by decide, ascii_of_isService S.service_valid⟩
    · exact ⟨show Ascii (units "operation") by decide, hoperation⟩
    · exact ⟨show Ascii (units "nonce") by decide, hnonce⟩
    · exact ⟨by decide, show Ascii (units "false") by decide⟩
    · exact ⟨by decide, show Ascii (units "null") by decide⟩
  obtain ⟨message, hmessage⟩ := Option.isSome_iff_exists.mp (canonical_flat floats hcore)
  have hmac : ∀ item ∈ [(units "mac", PyValue.str (hexdigest (hmac S.key (responseDomain ++ message))))], Ascii item.1 ∧ Plain item.2 := by
    intro item hitem
    rw [List.mem_singleton.mp hitem]
    exact ⟨show Ascii (units "mac") by decide, hexdigest_ascii _⟩
  have hall := canonical_flat floats fun item hitem => (List.mem_append.mp hitem).elim (hcore item) (hmac item)
  rw [response, hmessage, Option.bind_eq_bind, Option.bind_some]
  exact hall

variable (loads floats hmac S) in
/-- The refusal raises exactly on a document with a harmful field. -/
theorem refusal_isSome (raw : Bytes) :
    (refusal loads floats hmac S raw).isSome = true ↔ ∀ items, loads raw = some (.dict items) →
      HarmlessField floats items (units "operation") ∧ HarmlessField floats items (units "nonce") := by
  have hboth : (refusal loads floats hmac S raw).isSome = true ↔
      (choose floats isOperation (units "invalid") (fieldOr (units "operation") (units "invalid") (loads raw))).isSome = true ∧
      (choose floats isNonce (List.replicate 64 (unit '0')) (fieldOr (units "nonce") (List.replicate 64 (unit '0')) (loads raw))).isSome = true := by
    have hinvalid : Ascii (units "invalid") := by decide
    have hzeros : Ascii (List.replicate 64 (unit '0')) := by decide
    rw [refusal]
    cases hoperation : choose floats isOperation (units "invalid") (fieldOr (units "operation") (units "invalid") (loads raw)) with
    | none => simp
    | some =>
      cases hnonce : choose floats isNonce (List.replicate 64 (unit '0')) (fieldOr (units "nonce") (List.replicate 64 (unit '0')) (loads raw)) with
      | none => simp
      | some =>
        have hsome := response_refusal floats hmac S
          (choose_ascii (fun _ => ascii_of_isOperation) hinvalid hoperation) (choose_ascii (fun _ => ascii_of_isNonce) hzeros hnonce)
        simpa using hsome
  rw [hboth, choose_isSome, choose_isSome]
  by_cases hdict : ∃ items, loads raw = some (.dict items)
  · obtain ⟨items, hitems⟩ := hdict
    rw [hitems, fieldOr_harmless, fieldOr_harmless]
    constructor
    · intro h items' hsame
      cases hsame
      exact h
    · intro h
      exact h items rfl
  · have hother : ∀ items, loads raw ≠ some (.dict items) := fun items h => hdict ⟨items, h⟩
    rw [fieldOr_other hother, fieldOr_other hother]
    exact ⟨fun _ items h => absurd h (hother items), fun _ => ⟨truthy_default floats _, truthy_default floats _⟩⟩

theorem Authentic.harmless {raw : Bytes} (h : Authentic loads floats hmac S raw r) :
    ∀ items, loads raw = some (.dict items) →
      HarmlessField floats items (units "operation") ∧ HarmlessField floats items (units "nonce") := by
  obtain ⟨items, message, hload, -, hoperation, hnonce, -⟩ := h.signed
  intro items' hload'
  rw [hload] at hload'
  cases hload'
  refine ⟨fun v hv _ => ⟨r.operation, ?_⟩, fun v hv _ => ⟨r.nonce, ?_⟩⟩
  · rw [hoperation] at hv
    exact (Option.some.inj hv).symm
  · rw [hnonce] at hv
    exact (Option.some.inj hv).symm

theorem sendAll_length (response : Bytes) : (sendAll response).length ≤ 1 := by
  rw [sendAll]
  split
  · exact Nat.le_refl 1
  · exact Nat.zero_le 1

/-- A call for the expected peer returns, with one response at most, exactly on harmless bytes. -/
theorem serveOnce_harmless (s : State H) (bytes : Bytes) :
    let served := (serveOnce loads floats hmac S handler s ⟨some S.expectedPeerUid, bytes⟩).2
    (served.raised = false ∧ served.responses.length ≤ 1) ↔ Harmless loads floats ⟨some S.expectedPeerUid, bytes⟩ := by
  have hcases := attempt_cases loads floats hmac S handler s
    (Connection.raw ⟨some S.expectedPeerUid, bytes⟩)
  have hrefusal := refusal_isSome loads floats hmac S (Connection.raw ⟨some S.expectedPeerUid, bytes⟩)
  rw [serveOnce, if_neg (by simp)]
  dsimp only
  have hraw : bytes.take (maxRequest + 1) = Connection.raw ⟨some S.expectedPeerUid, bytes⟩ := rfl
  rw [hraw, Harmless]
  generalize Connection.raw ⟨some S.expectedPeerUid, bytes⟩ = raw at hcases hrefusal
  split
  · rename_i hsize
    refine iff_of_true ⟨rfl, Nat.zero_le 1⟩ ?_
    intro hne hle
    rw [Bool.or_eq_true, List.isEmpty_iff, decide_eq_true_eq] at hsize
    cases hsize with
    | inl hnil => exact absurd hnil hne
    | inr => omega
  · rename_i hsize
    have hlooked : (raw ≠ [] → raw.length ≤ maxRequest → ∀ items, loads raw = some (.dict items) →
        HarmlessField floats items (units "operation") ∧ HarmlessField floats items (units "nonce")) ↔
        ∀ items, loads raw = some (.dict items) →
        HarmlessField floats items (units "operation") ∧ HarmlessField floats items (units "nonce") := by
      rw [Bool.or_eq_true, List.isEmpty_iff, decide_eq_true_eq, not_or, Nat.not_lt] at hsize
      exact ⟨fun h => h hsize.1 hsize.2, fun h _ _ => h⟩
    rw [hlooked]
    split
    · -- the request is answered: it is authenticated
      rename_i after calls answer hattempt
      rw [hattempt] at hcases
      refine iff_of_true ⟨rfl, sendAll_length _⟩ ?_
      rcases hcases with ⟨-, -, hnone⟩ | ⟨r, -, hauthentic, -⟩
      · cases hnone
      · exact hauthentic.harmless
    · rw [← hrefusal]
      split
      · rename_i answer hanswer
        rw [hanswer]
        exact iff_of_true ⟨rfl, sendAll_length _⟩ rfl
      · rename_i hraises
        rw [hraises]
        exact iff_of_false (fun h => Bool.noConfusion h.1) (by simp)

end Calls

/-- `serve_once` returns, with one response at most, exactly on harmless bytes; the handler
    only sees what the key signed; and what it saw it sees again only after `maximum`
    other nonces. -/
theorem serve_once_iff {H : Type} (loads : Bytes → Option PyValue) (floats : Floats) (hmac : Bytes → Bytes → Bytes) (S : Server)
    (handler : Handler H) :
    (∀ (s : State H) (bytes : Bytes),
      let served := (serveOnce loads floats hmac S handler s ⟨some S.expectedPeerUid, bytes⟩).2
      (served.raised = false ∧ served.responses.length ≤ 1) ↔ Harmless loads floats ⟨some S.expectedPeerUid, bytes⟩) ∧
    (∀ (s : State H) (c : Connection), ∀ r ∈ (serveOnce loads floats hmac S handler s c).2.dispatched,
      Authentic loads floats hmac S c.raw r) ∧
    ∀ (h : H) (cs : List Connection) (before since after : List Request) (r r' : Request),
      dispatched loads floats hmac S handler ⟨Dict.empty, h⟩ cs = before ++ r :: (since ++ r' :: after) →
      ((since.map Request.nonce).filter (· ≠ r.nonce)).dedup.length < S.maximum → r'.nonce ≠ r.nonce := by
  refine ⟨serveOnce_harmless, ?_, ?_⟩
  · intro s c r hr
    rcases serveOnce_step loads floats hmac S handler s c with
      ⟨hnone, -⟩ | ⟨first, hone, hauthentic, -⟩
    · rw [hnone] at hr
      cases hr
    · rw [hone] at hr
      rwa [List.mem_singleton.mp hr]
  · intro h cs before since after r r' hrun hfew
    exact dispatched_once cs _ before since after r r' (Nat.zero_le _) hrun hfew

/-! A server -/

def finality : Server where
  service := units "finality"
  key := List.replicate 32 7
  expectedPeerUid := 1000
  maximum := 128
  service_valid := by decide
  maximum_valid := by decide

def counter : Handler Nat := ⟨[units "sign_finality"], fun n _ _ => (n + 1, some (.int n))⟩

def plainFloats : Floats := ⟨id, fun lexeme => lexeme.all (fun n => n == unit '0' || n == unit '.' || n == unit '-')⟩

def flatDigest (_ _ : Bytes) : Bytes := List.replicate 32 0

/-- A signed document with the nonce that ends in `n`. -/
def signed (n : Nat) : PyValue := .dict
  [(units "service", .str (units "finality")), (units "operation", .str (units "sign_finality")),
    (units "nonce", .str (List.replicate 63 (unit '0') ++ [n])), (units "arguments", .dict []),
    (units "mac", .str (List.replicate 64 (unit '0')))]

def readByte : Bytes → Option PyValue
  | [b] => some (signed b.toNat)
  | _ => none

/-- Two requests reach the handler, so they have two nonces; the repeated one does not. -/
theorem serve_once_iff_signed : ∃ r r',
    dispatched readByte plainFloats flatDigest finality counter ⟨Dict.empty, 0⟩
      [⟨some 1000, [97]⟩, ⟨some 1000, [98]⟩, ⟨some 1000, [97]⟩] = [r, r'] ∧ r'.nonce ≠ r.nonce := by
  have hlength : (dispatched readByte plainFloats flatDigest finality counter ⟨Dict.empty, 0⟩
      [⟨some 1000, [97]⟩, ⟨some 1000, [98]⟩, ⟨some 1000, [97]⟩]).length = 2 := by
    decide +kernel
  obtain ⟨r, r', hrun⟩ := List.length_eq_two.mp hlength
  refine ⟨r, r', hrun, ?_⟩
  have hfew : ((([] : List Request).map Request.nonce).filter (· ≠ r.nonce)).dedup.length < finality.maximum := by
    simp [finality]
  exact (serve_once_iff readByte plainFloats flatDigest finality counter).2.2 0 _ [] [] [] r r' hrun hfew

/-- An operation that is a number raises out of the refusal. -/
theorem refusal_raises :
    (serveOnce PyJson.loads plainFloats flatDigest finality counter ⟨Dict.empty, 0⟩
      ⟨some 1000, "\x7b\"operation\":5\x7d".toUTF8.toList⟩).2.raised = true := by
  decide +kernel

end GrowthMap.Sidecar
