import GrowthMap.Lib.Fallible
import GrowthMap.Lib.IsoTime
import GrowthMap.Lib.Lexicographic
import GrowthMap.Payments.Types

/- The signed requests of the payment edge, as the Authority accepts and encodes them.

   A request comes as raw bytes (authority_api.py). Its headers, its path and the fields
   made of them are checked before `service_auth` hands a `ServiceAuthRequest` to the
   verifier of the composition (authority_composition.py), which knows one peer. What is
   signed joins nine fields with a zero byte, and the journal's binding joins ten. A join
   can be taken apart again when no field holds a zero byte (`joined_injective`), and no
   field of an accepted request does (`accept_clean`): a header is printable, a routed path
   is one of fifteen, and the peer and the subject are those of the descriptor.

   The body is there by its digest. What else is refused before the fields are looked at
   (the body's form, the signer it names) is left to `preflight`. -/
namespace GrowthMap.EdgeRequests

open Payments (Time isLowerHex)
open Fallible

/-- The bytes of a string, each as its value. -/
abbrev Bytes := List Nat

/-- `v.encode("ascii")` -/
def encodeAscii (s : String) : Option Bytes :=
  if s.toList.all (fun c => decide (c.toNat < 128)) then some (s.toList.map Char.toNat) else none

/-- `raw.decode("ascii", "strict")` -/
def decodeAscii (b : Bytes) : Option String :=
  if b.all (fun n => decide (n < 128)) then some (String.ofList (b.map Char.ofNat)) else none

def ascii (s : String) : Bytes := s.toList.map Char.toNat

/-! The composition descriptor -/

def isAlnum (c : Char) : Bool := ('0' ≤ c && c ≤ '9') || ('A' ≤ c && c ≤ 'Z') || ('a' ≤ c && c ≤ 'z')

def isLowerAlnum (c : Char) : Bool := ('0' ≤ c && c ≤ '9') || ('a' ≤ c && c ≤ 'z')

/-- `[A-Za-z0-9._-]{3,128}` -/
def isName (s : String) : Bool :=
  s.toList.all (fun c => isAlnum c || c == '.' || c == '_' || c == '-') &&
    decide (3 ≤ s.toList.length) && decide (s.toList.length ≤ 128)

/-- `[a-z][a-z0-9_-]{0,31}` -/
def isSource (s : String) : Bool :=
  match s.toList with
  | [] => false
  | c :: rest => ('a' ≤ c && c ≤ 'z') && rest.all (fun c => isLowerAlnum c || c == '_' || c == '-') && decide (rest.length ≤ 31)

/-- `[a-z0-9][a-z0-9._-]{2,63}` -/
def isAudience (s : String) : Bool :=
  match s.toList with
  | [] => false
  | c :: rest => isLowerAlnum c && rest.all (fun c => isLowerAlnum c || c == '.' || c == '_' || c == '-') &&
      decide (2 ≤ rest.length) && decide (rest.length ≤ 63)

/-- The `edge` of a descriptor that `validate_composition_descriptor` accepts. -/
structure Edge where
  identity : String
  source : String
  subject : String
  audience : String
  identity_ok : isName identity = true
  source_ok : isSource source = true
  subject_ok : isName subject = true
  audience_ok : isAudience audience = true

/-- What `create_authority_app` is composed of here: the edge and its public key, and the
id of the Authority. -/
structure Composition where
  edge : Edge
  publicKey : Bytes
  authorityId : String
  maxClockSkewSeconds : Nat

/-! Requests -/

/-- The scope of a request, as the server passes it on: the client's host, the raw path
without its query, the headers in the order they came. -/
structure Scope where
  method : String
  rawPath : Option Bytes
  headers : List (Bytes × Bytes)
  client : Option String
  body : Bytes

/-- `hashlib.sha256(…).hexdigest()` -/
structure HexDigest where
  text : String
  hex : text.toList.all isLowerHex = true
  length : text.toList.length = 64
  deriving DecidableEq

structure PeerDescriptor where
  identity : String
  source : String
  deriving DecidableEq, Repr

structure ServiceAuthRequest where
  method : String
  path : String
  bodySha256 : String
  timestamp : String
  nonce : String
  audience : String
  authorityId : String
  credential : Bytes
  peer : Option PeerDescriptor
  deriving DecidableEq, Repr

structure ServiceIdentity where
  subject : String
  audience : String
  authorityId : String
  deriving DecidableEq, Repr

/-- SHA-256, Ed25519 and the libraries around the code: `b64decode` with `validate=True`,
`fromisoformat` of a text with an offset, `request.url.path`, and whatever is raised
between the headers and the fields. -/
structure Primitives where
  sha256 : Bytes → HexDigest
  /-- the key, the signature, the message -/
  verify : Bytes → Bytes → Bytes → Bool
  b64decode : Bytes → Option Bytes
  fromisoformat : String → Option Time
  urlPath : Scope → String
  preflight : Scope → Except Nat Unit

/-! Paths -/

/-- `@app.post("/v1/service/…")` -/
def servicePaths : List String :=
  ["/v1/service/entitlements", "/v1/service/entitlements/read", "/v1/service/revocations",
   "/v1/service/revocations/read", "/v1/service/activation/challenge", "/v1/service/activation/complete",
   "/v1/service/gifts/create", "/v1/service/gifts/list", "/v1/service/gifts/get", "/v1/service/gifts/recover",
   "/v1/service/gifts/revoke", "/v1/service/gifts/devices", "/v1/service/gifts/devices/deactivate",
   "/v1/service/gifts/claim/challenge", "/v1/service/gifts/claim/complete"]

def hexVal (n : Nat) : Option Nat :=
  if 48 ≤ n ∧ n ≤ 57 then some (n - 48)
  else if 65 ≤ n ∧ n ≤ 70 then some (n - 55)
  else if 97 ≤ n ∧ n ≤ 102 then some (n - 87)
  else none

/-- `%XX` decoded, anything else left: what the server makes of a raw path. -/
def unquote : Bytes → Bytes
  | c :: a :: b :: rest =>
    if c = 37 then
      match hexVal a, hexVal b with
      | some x, some y => (16 * x + y) :: unquote rest
      | _, _ => c :: unquote (a :: b :: rest)
    else c :: unquote (a :: b :: rest)
  | short => short

/-- `scope["path"]`, before its bytes are decoded as text. -/
def Scope.path (s : Scope) : Bytes := unquote (s.rawPath.getD [])

/-- A POST is routed by its path; the router's patterns end in `$`. -/
def routed (s : Scope) : Bool :=
  decide (s.method = "POST") &&
    servicePaths.any (fun p => decide (s.path = ascii p) || decide (s.path = ascii p ++ [10]))

/-- `_path` -/
def pathOf (P : Primitives) (s : Scope) : Except Nat String :=
  match s.rawPath with
  | none => .error 400
  | some raw =>
    if raw = [] ∨ 256 < raw.length then .error 400
    else match decodeAscii raw with
      | none => .error 400
      | some path => if path ≠ P.urlPath s then .error 400 else .ok path

/-! Headers -/

def maxHeaderCount : Nat := 64
def maxHeaderNameBytes : Nat := 64
def maxHeaderValueBytes : Nat := 4096
def maxHeaderBytes : Nat := 16384

/-- `_TCHAR`: digits, letters and the fifteen marks of a header name. -/
def isTchar (n : Nat) : Bool :=
  (48 ≤ n && n ≤ 57) || (65 ≤ n && n ≤ 90) || (97 ≤ n && n ≤ 122) ||
    [33, 35, 36, 37, 38, 39, 42, 43, 45, 46, 94, 95, 96, 124, 126].contains n

/-- `bytes.lower()` -/
def lowerBytes (b : Bytes) : Bytes := b.map (fun n => if 65 ≤ n ∧ n ≤ 90 then n + 32 else n)

/-- `byte < 0x20 or byte >= 0x7f` of no byte. -/
def printable (b : Bytes) : Bool := b.all (fun n => decide (32 ≤ n) && decide (n < 127))

/-- The loop of `_raw_headers`, with what it has summed and collected. -/
def readHeaders : Nat → List (Bytes × Bytes) → List (Bytes × Bytes) → Except Nat (List (Bytes × Bytes))
  | _, result, [] => .ok result
  | total, result, (name, value) :: rows =>
    let total := total + name.length + value.length
    if name = [] ∨ maxHeaderNameBytes < name.length ∨ maxHeaderValueBytes < value.length ∨ maxHeaderBytes < total ∨
        !name.all isTchar ∨ !printable value then .error 400
    else if result.any (fun row => decide (row.1 = lowerBytes name)) then .error 400
    else readHeaders total (result ++ [(lowerBytes name, value)]) rows

/-- `_raw_headers` -/
def rawHeaders (rows : List (Bytes × Bytes)) : Except Nat (List (Bytes × Bytes)) :=
  if maxHeaderCount < rows.length then .error 400 else readHeaders 0 [] rows

/-- `_ascii` -/
def asciiHeader (headers : List (Bytes × Bytes)) (name : String) : Except Nat String :=
  match headers.lookup (ascii name) with
  | none => .error 403
  | some raw =>
    if raw = [] then .error 403
    else match decodeAscii raw with
      | none => .error 403
      | some text => .ok text

/-! The fields -/

/-- `NONCE_RE` -/
def isNonce (s : String) : Bool :=
  s.toList.all (fun c => isAlnum c || c == '_' || c == '-') && decide (16 ≤ s.toList.length) && decide (s.toList.length ≤ 128)

def isAscii (s : String) : Bool := s.toList.all (fun c => decide (c.toNat < 128))

/-- `AuthenticatedEdgeAdapter.resolve` -/
def resolve (e : Edge) (s : Scope) : Option PeerDescriptor :=
  if s.client = some "127.0.0.1" ∨ s.client = some "::1" then some ⟨e.identity, e.source⟩ else none

/-- `peer` -/
def peer (e : Edge) (s : Scope) : Except Nat PeerDescriptor :=
  match resolve e s with
  | none => .error 403
  | some value =>
    if value.identity = "" ∨ !isAscii value.identity ∨ 256 < value.identity.toList.length ∨
        value.source = "" ∨ !isAscii value.source ∨ 64 < value.source.toList.length then .error 403
    else .ok value

def ServiceAuthRequest.fields (r : ServiceAuthRequest) : List String :=
  [r.method, r.path, r.bodySha256, r.timestamp, r.nonce, r.audience, r.authorityId,
   (r.peer.map PeerDescriptor.identity).getD "", (r.peer.map PeerDescriptor.source).getD ""]

/-- `b"\0".join(v.encode("ascii") for v in fields)` -/
def joined (fields : List String) : Option Bytes := (fields.mapM encodeAscii).map (List.intercalate [0])

/-- `signed_bytes` -/
def signedBytes (r : ServiceAuthRequest) : Option Bytes :=
  (joined r.fields).map (ascii "growthmap-authority-edge-v1" ++ 0 :: ·)

/-- `Ed25519ServiceIdentityVerifier.verify` -/
def verify (P : Primitives) (c : Composition) (r : ServiceAuthRequest) : Option ServiceIdentity :=
  if r.peer ≠ some ⟨c.edge.identity, c.edge.source⟩ ∨ r.audience ≠ c.edge.audience ∨ r.method ≠ "POST" ∨
      !"/v1/service/".toList.isPrefixOf r.path.toList then none
  else match P.b64decode r.credential with
    | none => none
    | some signature =>
      if signature.length ≠ 64 then none
      else match signedBytes r with
        | none => none
        | some message =>
          if P.verify c.publicKey signature message then some ⟨c.edge.subject, r.audience, r.authorityId⟩ else none

/-- `timestamp.replace("Z", "+00:00")` -/
def replaceZ (s : String) : String :=
  String.ofList (s.toList.flatMap (fun c => if c = 'Z' then ['+', '0', '0', ':', '0', '0'] else [c]))

/-- `service_auth`, at the instant `now`. -/
def serviceAuth (P : Primitives) (c : Composition) (now : Time) (s : Scope) (digest : HexDigest)
    (headers : List (Bytes × Bytes)) (path : String) : Except Nat (ServiceIdentity × ServiceAuthRequest) := do
  let timestamp ← asciiHeader headers "x-authority-timestamp"
  let nonce ← asciiHeader headers "x-authority-nonce"
  let audience ← asciiHeader headers "x-authority-audience"
  let authorityId ← asciiHeader headers "x-authority-id"
  match headers.lookup (ascii "x-authority-service-auth") with
  | none => .error 403
  | some credential =>
    if credential = [] ∨ !isNonce nonce ∨ audience ≠ c.edge.audience ∨ authorityId ≠ c.authorityId then .error 403
    else match P.fromisoformat (replaceZ timestamp) with
      | none => .error 403
      | some parsed =>
        if c.maxClockSkewSeconds * 1000000 < (now - parsed).natAbs then .error 403
        else do
          let descriptor ← peer c.edge s
          let assertion : ServiceAuthRequest :=
            { method := s.method, path := path, bodySha256 := digest.text, timestamp := timestamp, nonce := nonce,
              audience := audience, authorityId := authorityId, credential := credential, peer := some descriptor }
          match verify P c assertion with
          | none => .error 403
          | some identity =>
            if identity.audience ≠ audience ∨ identity.authorityId ≠ authorityId ∨ identity.subject = "" ∨
                !isAscii identity.subject ∨ 128 < identity.subject.toList.length then .error 403
            else .ok (identity, assertion)

def accept (P : Primitives) (c : Composition) (now : Time) (s : Scope) : Except Nat (ServiceIdentity × ServiceAuthRequest) :=
  if !routed s then .error 404
  else do
    let headers ← rawHeaders s.headers
    P.preflight s
    let path ← pathOf P s
    serviceAuth P c now s (P.sha256 s.body) headers path

/-! The journal's digests -/

def ServiceAuthRequest.bound (r : ServiceAuthRequest) (subject : String) : List String :=
  [subject, (r.peer.map PeerDescriptor.identity).getD "", (r.peer.map PeerDescriptor.source).getD "", r.nonce,
   r.timestamp, r.bodySha256, r.method, r.path, r.authorityId, r.audience]

/-- The text under `binding`. -/
def bindingBytes (r : ServiceAuthRequest) (subject : String) : Option Bytes :=
  (joined (r.bound subject)).map (ascii "growthmap-journal-binding-v1" ++ 0 :: ·)

/-- `SQLiteRequestJournal.binding` -/
def binding (P : Primitives) (r : ServiceAuthRequest) (subject : String) : Option HexDigest :=
  (bindingBytes r subject).map P.sha256

/-- `(identity.subject+"\0"+request.nonce).encode()` -/
def keyBytes (subject nonce : String) : Bytes :=
  Lexicographic.utf8 (String.ofList (subject.toList ++ Char.ofNat 0 :: nonce.toList))

def journalKey (P : Primitives) (subject nonce : String) : HexDigest := P.sha256 (keyBytes subject nonce)

/-! Clean fields -/

/-- A text of ASCII characters, none of them zero. -/
def Clean (s : String) : Prop := ∀ c ∈ s.toList, 0 < c.toNat ∧ c.toNat < 128

instance (s : String) : Decidable (Clean s) := List.decidableBAll (fun c : Char => 0 < c.toNat ∧ c.toNat < 128) s.toList

variable {s subject : String} {fields' : List String} {headers : List (Bytes × Bytes)} {P : Primitives}
  {c : Composition} {r : ServiceAuthRequest} {i : ServiceIdentity}

theorem encodeAscii_clean (h : Clean s) : encodeAscii s = some (ascii s) := by
  have hall : s.toList.all (fun c => decide (c.toNat < 128)) = true := by
    rw [List.all_eq_true]
    intro c hc
    exact decide_eq_true (h c hc).2
  rw [encodeAscii, if_pos hall, ascii]

theorem ascii_injective : Function.Injective ascii := by
  intro s t h
  apply String.toList_injective
  exact List.map_injective_iff.mpr (fun _ _ => Char.toNat_inj.mp) h

theorem zero_not_mem_ascii (h : Clean s) : 0 ∉ ascii s := by
  intro hmem
  obtain ⟨c, hc, hzero⟩ := List.mem_map.mp hmem
  have := (h c hc).1
  omega

variable {fields : List String} {path : String}

theorem joined_clean (h : ∀ s ∈ fields, Clean s) :
    joined fields = some (List.intercalate [0] (fields.map ascii)) := by
  have hencode : ∀ s ∈ fields, encodeAscii s = some (ascii s) := fun s hs => encodeAscii_clean (h s hs)
  rw [joined, mapM_congr hencode, mapM_some, Option.map_some]

theorem intercalate_injective (h : ∀ s ∈ fields, Clean s) (h' : ∀ s ∈ fields', Clean s)
    (hne : fields ≠ []) (hne' : fields' ≠ [])
    (heq : List.intercalate [0] (fields.map ascii) = List.intercalate [0] (fields'.map ascii)) : fields = fields' := by
  have hparts : ∀ {fs : List String}, (∀ s ∈ fs, Clean s) → ∀ l ∈ fs.map ascii, 0 ∉ l := by
    intro fs hfs l hl
    obtain ⟨s, hs, rfl⟩ := List.mem_map.mp hl
    exact zero_not_mem_ascii (hfs s hs)
  apply List.map_injective_iff.mpr ascii_injective
  rw [← List.splitOn_intercalate 0 (hparts h) (by simpa using hne), heq,
    List.splitOn_intercalate 0 (hparts h') (by simpa using hne')]

theorem joined_injective (h : ∀ s ∈ fields, Clean s) (h' : ∀ s ∈ fields', Clean s)
    (hne : fields ≠ []) (hne' : fields' ≠ []) (heq : joined fields = joined fields') : fields = fields' := by
  rw [joined_clean h, joined_clean h', Option.some.injEq] at heq
  exact intercalate_injective h h' hne hne' heq

/-! Where clean fields come from -/

theorem char_le {a b : Char} : a ≤ b ↔ a.toNat ≤ b.toNat := UInt32.le_iff_toNat_le

theorem isAlnum_clean {c : Char} (h : isAlnum c = true) : 0 < c.toNat ∧ c.toNat < 128 := by
  simp only [isAlnum, Bool.or_eq_true, Bool.and_eq_true, decide_eq_true_eq, char_le] at h
  have h0 : ('0' : Char).toNat = 48 := rfl
  have h9 : ('9' : Char).toNat = 57 := rfl
  have hA : ('A' : Char).toNat = 65 := rfl
  have hZ : ('Z' : Char).toNat = 90 := rfl
  have ha : ('a' : Char).toNat = 97 := rfl
  have hz : ('z' : Char).toNat = 122 := rfl
  omega

theorem isLowerHex_alnum {c : Char} (h : isLowerHex c = true) : isAlnum c = true := by
  simp only [isLowerHex, isAlnum, Bool.or_eq_true, Bool.and_eq_true, decide_eq_true_eq] at h ⊢
  rcases h with h | ⟨h, h'⟩
  · exact .inl (.inl h)
  · exact .inr ⟨h, Char.le_trans h' (by decide)⟩

theorem isLowerAlnum_alnum {c : Char} (h : isLowerAlnum c = true) : isAlnum c = true := by
  simp only [isLowerAlnum, isAlnum, Bool.or_eq_true] at h ⊢
  rcases h with h | h
  · exact .inl (.inl h)
  · exact .inr h

theorem clean_of_word
    (h : ∀ c ∈ s.toList, isAlnum c = true ∨ c = '.' ∨ c = '_' ∨ c = '-') : Clean s := by
  intro c hc
  rcases h c hc with h | rfl | rfl | rfl
  · exact isAlnum_clean h
  · decide
  · decide
  · decide

theorem isName_clean (h : isName s = true) : Clean s := by
  simp only [isName, Bool.and_eq_true, List.all_eq_true, Bool.or_eq_true, beq_iff_eq] at h
  apply clean_of_word
  intro c hc
  rcases h.1.1 c hc with ((h | h) | h) | h
  · exact .inl h
  · exact .inr (.inl h)
  · exact .inr (.inr (.inl h))
  · exact .inr (.inr (.inr h))

theorem isSource_clean (h : isSource s = true) : Clean s := by
  unfold isSource at h
  apply clean_of_word
  cases hs : s.toList with
  | nil => simp
  | cons =>
    simp only [hs, Bool.and_eq_true, List.all_eq_true, Bool.or_eq_true, beq_iff_eq] at h
    intro d hd
    rcases List.mem_cons.mp hd with rfl | hd
    · left
      simp only [isAlnum, Bool.or_eq_true, Bool.and_eq_true]
      exact .inr h.1.1
    · rcases h.1.2 d hd with (h | h) | h
      · exact .inl (isLowerAlnum_alnum h)
      · exact .inr (.inr (.inl h))
      · exact .inr (.inr (.inr h))

theorem hex_clean (d : HexDigest) : Clean d.text := by
  intro c hc
  exact isAlnum_clean (isLowerHex_alnum (List.all_eq_true.mp d.hex c hc))

theorem toNat_ofNat {n : Nat} (h : n < 128) : (Char.ofNat n).toNat = n := by
  rw [Char.ofNat, dif_pos (Or.inl (Nat.lt_trans h (by decide)))]
  rfl

theorem decodeAscii_clean {b : Bytes} (hb : 0 ∉ b) (h : decodeAscii b = some s) : Clean s := by
  unfold decodeAscii at h
  split at h
  · rename_i hall
    rw [← Option.some.inj h]
    intro c hc
    rw [String.toList_ofList] at hc
    obtain ⟨n, hn, rfl⟩ := List.mem_map.mp hc
    have hlt : n < 128 := of_decide_eq_true (List.all_eq_true.mp hall n hn)
    rw [toNat_ofNat hlt]
    exact ⟨Nat.pos_of_ne_zero (fun hzero => hb (hzero ▸ hn)), hlt⟩
  · cases h

theorem hexVal_ne_zero {n x : Nat} (h : hexVal n = some x) : n ≠ 0 := by
  rintro rfl
  cases h

theorem zero_mem_unquote {raw : Bytes} (h : 0 ∈ raw) : 0 ∈ unquote raw := by
  fun_induction unquote raw with
  | case1 a b rest y x hy hx ih =>
    have ha : 0 ≠ a := (hexVal_ne_zero hx).symm
    have hb : 0 ≠ b := (hexVal_ne_zero hy).symm
    simp only [List.mem_cons, ha, hb, false_or] at h
    exact List.mem_cons_of_mem _ (ih (by simpa using h))
  | case2 a b rest hnone ih =>
    exact List.mem_cons_of_mem _ (ih (by simpa using h))
  | case3 c a b rest hc ih =>
    rcases List.mem_cons.mp h with rfl | h
    · exact List.mem_cons_self
    · exact List.mem_cons_of_mem _ (ih h)
  | case4 short hshort => exact h

theorem readHeaders_printable {total : Nat} {result rows : List (Bytes × Bytes)}
    (hresult : ∀ row ∈ result, printable row.2 = true) (h : readHeaders total result rows = .ok headers) :
    ∀ row ∈ headers, printable row.2 = true := by
  induction rows generalizing total result with
  | nil =>
    cases h
    exact hresult
  | cons row rows ih =>
    obtain ⟨name, value⟩ := row
    simp only [readHeaders, guard_eq_ok, not_or] at h
    obtain ⟨⟨-, -, -, -, -, hvalue⟩, -, h⟩ := h
    refine ih ?_ h
    intro row hrow
    rcases List.mem_append.mp hrow with hrow | hrow
    · exact hresult row hrow
    · rw [List.mem_singleton.mp hrow]
      simpa using hvalue

theorem printable_zero {b : Bytes} (h : printable b = true) : 0 ∉ b := by
  intro hmem
  have := List.all_eq_true.mp h 0 hmem
  simp at this

/-- The value of a header is clean. -/
theorem asciiHeader_clean (h : ∀ row ∈ headers, printable row.2 = true) {name text : String}
    (htext : asciiHeader headers name = .ok text) : Clean text := by
  unfold asciiHeader at htext
  cases hlookup : headers.lookup (ascii name) with
  | none =>
    rw [hlookup] at htext
    cases htext
  | some raw =>
    have hraw : 0 ∉ raw := by
      obtain ⟨key, hmem⟩ : ∃ key, (key, raw) ∈ headers := by
        obtain ⟨l₁, l₂, heq, -⟩ := List.lookup_eq_some_iff.mp hlookup
        exact ⟨ascii name, by rw [heq]; simp⟩
      exact printable_zero (h _ hmem)
    simp only [hlookup, guard_eq_ok] at htext
    cases hdecode : decodeAscii raw with
    | none =>
      rw [hdecode] at htext
      cases htext.2
    | some =>
      rw [hdecode] at htext
      rw [← Except.ok.inj htext.2]
      exact decodeAscii_clean hraw hdecode

/-- A routed path is one of the routes, with nothing after it but a line end. -/
theorem pathOf_clean {s : Scope} (hrouted : routed s = true) (h : pathOf P s = .ok path) :
    Clean path := by
  unfold pathOf at h
  cases hraw : s.rawPath with
  | none =>
    rw [hraw] at h
    cases h
  | some raw =>
    simp only [hraw, guard_eq_ok] at h
    cases hdecode : decodeAscii raw with
    | none =>
      rw [hdecode] at h
      cases h.2
    | some =>
      simp only [hdecode, guard_eq_ok] at h
      rw [← Except.ok.inj h.2.2]
      refine decodeAscii_clean ?_ hdecode
      intro hzero
      have hmem : 0 ∈ s.path := by
        rw [Scope.path, hraw]
        exact zero_mem_unquote hzero
      have hroutes : ∀ p ∈ servicePaths, 0 ∉ ascii p := by decide +kernel
      simp only [routed, Bool.and_eq_true, List.any_eq_true, Bool.or_eq_true, decide_eq_true_eq] at hrouted
      obtain ⟨-, p, hp, hpath⟩ := hrouted
      rcases hpath with hpath | hpath
      · rw [hpath] at hmem
        exact hroutes p hp hmem
      · rw [hpath] at hmem
        rcases List.mem_append.mp hmem with hmem | hmem
        · exact hroutes p hp hmem
        · simp at hmem

/-! Accepted requests -/

/-- What is known of a request that passed. -/
structure Accepted (P : Primitives) (c : Composition) (i : ServiceIdentity) (r : ServiceAuthRequest) : Prop where
  method : r.method = "POST"
  path : Clean r.path
  bodySha256 : Clean r.bodySha256
  timestamp : Clean r.timestamp
  nonce : Clean r.nonce
  audience : Clean r.audience
  authorityId : Clean r.authorityId
  peer : r.peer = some ⟨c.edge.identity, c.edge.source⟩
  subject : i.subject = c.edge.subject
  signed : ∃ signature message, P.b64decode r.credential = some signature ∧ signedBytes r = some message ∧
    P.verify c.publicKey signature message = true

/-- The verifier's answer: the peer is the edge, and the signature is over the fields. -/
theorem verify_spec (h : verify P c r = some i) :
    r.method = "POST" ∧ r.peer = some ⟨c.edge.identity, c.edge.source⟩ ∧ i.subject = c.edge.subject ∧
      ∃ signature message, P.b64decode r.credential = some signature ∧ signedBytes r = some message ∧
        P.verify c.publicKey signature message = true := by
  unfold verify at h
  split at h
  · cases h
  · rename_i hchecks
    simp only [not_or, ne_eq, not_not] at hchecks
    obtain ⟨hpeer, -, hmethod, -⟩ := hchecks
    cases hcredential : P.b64decode r.credential with
    | none =>
      rw [hcredential] at h
      cases h
    | some signature =>
      cases hbytes : signedBytes r with
      | none => simp [hcredential, hbytes] at h
      | some message =>
        simp only [hcredential, hbytes] at h
        split at h
        · cases h
        · split at h
          · rename_i hverified
            rw [← Option.some.inj h]
            exact ⟨hmethod, hpeer, rfl, signature, message, rfl, rfl, hverified⟩
          · cases h

theorem serviceAuth_spec {now : Time} {s : Scope} {digest : HexDigest}
    (hheaders : ∀ row ∈ headers, printable row.2 = true) (hpath : Clean path)
    (h : serviceAuth P c now s digest headers path = .ok (i, r)) : Accepted P c i r := by
  unfold serviceAuth at h
  obtain ⟨timestamp, htimestamp, h⟩ := bind_ok h
  obtain ⟨nonce, hnonce, h⟩ := bind_ok h
  obtain ⟨audience, haudience, h⟩ := bind_ok h
  obtain ⟨authorityId, hauthority, h⟩ := bind_ok h
  cases hcredential : headers.lookup (ascii "x-authority-service-auth") with
  | none =>
    rw [hcredential] at h
    cases h
  | some =>
    simp only [hcredential, guard_eq_ok] at h
    obtain ⟨-, h⟩ := h
    cases hparsed : P.fromisoformat (replaceZ timestamp) with
    | none =>
      rw [hparsed] at h
      cases h
    | some =>
      simp only [hparsed, guard_eq_ok] at h
      obtain ⟨-, h⟩ := h
      obtain ⟨descriptor, -, h⟩ := bind_ok h
      split at h
      · cases h
      · rename_i identity hverify
        obtain ⟨-, h⟩ := guard_ok h
        cases h
        obtain ⟨hmethod, hpeer, hsubject, hsigned⟩ := verify_spec hverify
        exact
          { method := hmethod, path := hpath, bodySha256 := hex_clean digest,
            timestamp := asciiHeader_clean hheaders htimestamp, nonce := asciiHeader_clean hheaders hnonce,
            audience := asciiHeader_clean hheaders haudience, authorityId := asciiHeader_clean hheaders hauthority,
            peer := hpeer, subject := hsubject, signed := hsigned }

theorem accept_spec {now : Time} {s : Scope}
    (h : accept P c now s = .ok (i, r)) : Accepted P c i r := by
  obtain ⟨hrouted, h⟩ := guard_ok h
  obtain ⟨headers, hheaders, h⟩ := bind_ok h
  obtain ⟨-, -, h⟩ := bind_ok h
  obtain ⟨path, hpath, h⟩ := bind_ok h
  have hprintable : ∀ row ∈ headers, printable row.2 = true :=
    readHeaders_printable (by simp) (guard_ok hheaders).2
  exact serviceAuth_spec hprintable (pathOf_clean (by simpa using hrouted) hpath) h

theorem Accepted.fields_clean (h : Accepted P c i r) : ∀ s ∈ r.fields, Clean s := by
  have hmethod : Clean r.method := by
    rw [h.method]
    decide
  have hpeer : Clean c.edge.identity ∧ Clean c.edge.source := ⟨isName_clean c.edge.identity_ok, isSource_clean c.edge.source_ok⟩
  simp only [ServiceAuthRequest.fields, h.peer, Option.map_some, Option.getD_some, List.forall_mem_cons]
  exact ⟨hmethod, h.path, h.bodySha256, h.timestamp, h.nonce, h.audience, h.authorityId, hpeer.1, hpeer.2, by simp⟩

theorem Accepted.subject_clean (h : Accepted P c i r) : Clean i.subject := by
  rw [h.subject]
  exact isName_clean c.edge.subject_ok

theorem mem_bound : s ∈ r.bound subject ↔ s = subject ∨ s ∈ r.fields := by
  simp only [ServiceAuthRequest.bound, ServiceAuthRequest.fields, List.mem_cons, List.not_mem_nil, or_false]
  tauto

/-- The two requests agree in all that is signed. -/
structure SameFields (r r' : ServiceAuthRequest) : Prop where
  method : r.method = r'.method
  path : r.path = r'.path
  bodySha256 : r.bodySha256 = r'.bodySha256
  timestamp : r.timestamp = r'.timestamp
  nonce : r.nonce = r'.nonce
  audience : r.audience = r'.audience
  authorityId : r.authorityId = r'.authorityId
  peer : r.peer = r'.peer

section Pair

variable {P : Primitives} {c c' : Composition} {i i' : ServiceIdentity} {r r' : ServiceAuthRequest}

theorem peer_eq (h : Accepted P c i r) (h' : Accepted P c' i' r')
    (hidentity : (r.peer.map PeerDescriptor.identity).getD "" = (r'.peer.map PeerDescriptor.identity).getD "")
    (hsource : (r.peer.map PeerDescriptor.source).getD "" = (r'.peer.map PeerDescriptor.source).getD "") :
    r.peer = r'.peer := by
  rw [h.peer, h'.peer] at hidentity hsource ⊢
  exact congrArg some (congrArg₂ PeerDescriptor.mk hidentity hsource)

theorem same_of_signed (h : Accepted P c i r) (h' : Accepted P c' i' r') (heq : signedBytes r = signedBytes r') :
    SameFields r r' := by
  have hjoined : joined r.fields = joined r'.fields :=
    Option.map_injective (List.append_right_injective _ |>.comp List.cons_injective) heq
  have hfields := joined_injective h.fields_clean h'.fields_clean (by simp [ServiceAuthRequest.fields])
    (by simp [ServiceAuthRequest.fields]) hjoined
  simp only [ServiceAuthRequest.fields, List.cons.injEq] at hfields
  obtain ⟨hmethod, hpath, hbody, htimestamp, hnonce, haudience, hauthority, hidentity, hsource, -⟩ := hfields
  exact ⟨hmethod, hpath, hbody, htimestamp, hnonce, haudience, hauthority, peer_eq h h' hidentity hsource⟩

theorem Accepted.bound_clean (h : Accepted P c i r) : ∀ s ∈ r.bound i.subject, Clean s := by
  intro s hs
  rcases mem_bound.mp hs with rfl | hs
  · exact h.subject_clean
  · exact h.fields_clean s hs

theorem Accepted.binding_some (h : Accepted P c i r) : ∃ m, bindingBytes r i.subject = some m := by
  rw [bindingBytes, joined_clean h.bound_clean]
  exact ⟨_, rfl⟩

theorem same_of_bound (h : Accepted P c i r) (h' : Accepted P c' i' r')
    (heq : bindingBytes r i.subject = bindingBytes r' i'.subject) : SameFields r r' ∧ i.subject = i'.subject := by
  have hjoined : joined (r.bound i.subject) = joined (r'.bound i'.subject) :=
    Option.map_injective (List.append_right_injective _ |>.comp List.cons_injective) heq
  have hfields := joined_injective h.bound_clean h'.bound_clean (by simp [ServiceAuthRequest.bound])
    (by simp [ServiceAuthRequest.bound]) hjoined
  simp only [ServiceAuthRequest.bound, List.cons.injEq] at hfields
  obtain ⟨hsubject, hidentity, hsource, hnonce, htimestamp, hbody, hmethod, hpath, hauthority, haudience, -⟩ := hfields
  exact ⟨⟨hmethod, hpath, hbody, htimestamp, hnonce, haudience, hauthority, peer_eq h h' hidentity hsource⟩, hsubject⟩

theorem keyBytes_clean {nonce : String} (hs : Clean subject) (hn : Clean nonce) :
    keyBytes subject nonce = List.intercalate [0] ([subject, nonce].map ascii) := by
  have hascii : ∀ ch ∈ subject.toList ++ Char.ofNat 0 :: nonce.toList, ch.toNat < 128 := by
    intro ch hch
    rcases List.mem_append.mp hch with hch | hch
    · exact (hs ch hch).2
    · rcases List.mem_cons.mp hch with rfl | hch
      · decide
      · exact (hn ch hch).2
  rw [keyBytes, Lexicographic.utf8_ascii hascii, List.map_append, List.map_cons, List.map_cons, List.map_singleton,
    List.intercalate_cons_cons, List.intercalate_singleton]
  simp [ascii]

theorem same_of_key (h : Accepted P c i r) (h' : Accepted P c' i' r')
    (heq : keyBytes i.subject r.nonce = keyBytes i'.subject r'.nonce) : i.subject = i'.subject ∧ r.nonce = r'.nonce := by
  have hclean : ∀ {c : Composition} {i : ServiceIdentity} {r : ServiceAuthRequest}, Accepted P c i r →
      ∀ s ∈ [i.subject, r.nonce], Clean s := by
    intro c i r h s hs
    simp only [List.mem_cons, List.not_mem_nil, or_false] at hs
    rcases hs with rfl | rfl
    · exact h.subject_clean
    · exact h.nonce
  rw [keyBytes_clean h.subject_clean h.nonce, keyBytes_clean h'.subject_clean h'.nonce] at heq
  have hfields := intercalate_injective (hclean h) (hclean h') (by simp) (by simp) heq
  simpa using hfields

end Pair

/-! The encoding -/

def hashed (i : ServiceIdentity) (r : ServiceAuthRequest) : List Bytes :=
  keyBytes i.subject r.nonce :: (bindingBytes r i.subject).toList

/-- SHA-256 tells the texts apart that the journal hashes for two requests. -/
def CollisionFree (P : Primitives) (i i' : ServiceIdentity) (r r' : ServiceAuthRequest) : Prop :=
  ∀ m ∈ hashed i r ++ hashed i' r', ∀ m' ∈ hashed i r ++ hashed i' r', P.sha256 m = P.sha256 m' → m = m'

def OneMessage (P : Primitives) (key : Bytes) : Prop :=
  ∀ signature m m', P.verify key signature m = true → P.verify key signature m' = true → m = m'

/-- Two accepted requests that are signed over the same bytes are the same in every
signed field; so are two that are bound alike in the journal, with their subjects, and
two that have one signature; and a journal key tells the subject and the nonce. -/
theorem request_encoding_injective (P : Primitives) (c c' : Composition) (now now' : Time) (s s' : Scope)
    (i i' : ServiceIdentity) (r r' : ServiceAuthRequest)
    (haccept : accept P c now s = .ok (i, r)) (haccept' : accept P c' now' s' = .ok (i', r'))
    (hfree : CollisionFree P i i' r r') (hone : OneMessage P c.publicKey) :
    (signedBytes r = signedBytes r' → SameFields r r') ∧
    (binding P r i.subject = binding P r' i'.subject → SameFields r r' ∧ i.subject = i'.subject) ∧
    (journalKey P i.subject r.nonce = journalKey P i'.subject r'.nonce → i.subject = i'.subject ∧ r.nonce = r'.nonce) ∧
    (c.publicKey = c'.publicKey → P.b64decode r.credential = P.b64decode r'.credential → SameFields r r') := by
  have h := accept_spec haccept
  have h' := accept_spec haccept'
  refine ⟨same_of_signed h h', ?_, ?_, ?_⟩
  · intro hbinding
    obtain ⟨m, hm⟩ := h.binding_some
    obtain ⟨m', hm'⟩ := h'.binding_some
    apply same_of_bound h h'
    rw [binding, binding, hm, hm', Option.map_some, Option.map_some, Option.some.injEq] at hbinding
    rw [hm, hm', hfree m (by simp [hashed, hm]) m' (by simp [hashed, hm']) hbinding]
  · intro hkey
    exact same_of_key h h' (hfree _ (by simp [hashed]) _ (by simp [hashed]) hkey)
  · intro hpublic hcredential
    obtain ⟨signature, message, hsignature, hmessage, hverified⟩ := h.signed
    obtain ⟨signature', message', hsignature', hmessage', hverified'⟩ := h'.signed
    have hsame : signature = signature' :=
      Option.some.inj (hsignature.symm.trans (hcredential.trans hsignature'))
    rw [← hpublic, ← hsame] at hverified'
    apply same_of_signed h h'
    rw [hmessage, hmessage', hone signature message message' hverified hverified']

/-! A request sent twice -/

namespace Twice

def edge : Edge :=
  { identity := "payments-edge", source := "edge", subject := "payments", audience := "growthmap-authority",
    identity_ok := by decide, source_ok := by decide, subject_ok := by decide, audience_ok := by decide }

/-- The key of the first test vector of Ed25519, and its signature over the request. -/
def publicKey : Bytes :=
  [215, 90, 152, 1, 130, 177, 10, 183, 213, 75, 254, 211, 201, 100, 7, 58, 14, 225, 114, 243, 218, 166, 35, 37, 175, 2,
   26, 104, 247, 7, 81, 26]

def signature : Bytes :=
  [37, 151, 157, 226, 66, 208, 158, 168, 137, 57, 88, 254, 72, 168, 42, 148, 170, 223, 162, 163, 248, 82, 107, 193,
   139, 164, 56, 118, 233, 121, 4, 181, 154, 25, 230, 66, 121, 198, 147, 223, 241, 142, 62, 58, 82, 211, 154, 176, 34,
   247, 105, 160, 169, 107, 216, 24, 51, 205, 128, 15, 7, 108, 8, 9]

def credential : Bytes := ascii "JZed4kLQnqiJOVj+SKgqlKrfoqP4UmvBi6Q4dul5BLWaGeZCecaT3/GOPjpS05qwIvdpoKlr2BgzzYAPB2wICQ=="

def composition : Composition := ⟨edge, publicKey, "primary", 300⟩

/-- The digests of the body, of the key's text and of the binding's. -/
def bodyDigest : HexDigest := ⟨"44136fa355b3678a1146ad16f7e8649e94fb4fc21fe77e8310c060f61caaff8a", by decide, by decide⟩
def keyDigest : HexDigest := ⟨"7fc15340249db31fc04148ae671299080757f7f642c951652c1ccfa30289b7d3", by decide, by decide⟩
def bindingDigest : HexDigest := ⟨"c490d9380c960e1dd6dad20ad0774aba808447b9a703c7dec0fb1a53a40f8b4f", by decide, by decide⟩

def scope : Scope :=
  { method := "POST", rawPath := some (ascii "/v1/service/gifts/list"), client := some "127.0.0.1", body := ascii "\x7b\x7d",
    headers :=
      [(ascii "X-Authority-Timestamp", ascii "2026-01-01T00:00:00Z"), (ascii "X-Authority-Nonce", ascii "0123456789abcdef"),
       (ascii "X-Authority-Audience", ascii "growthmap-authority"), (ascii "X-Authority-Id", ascii "primary"),
       (ascii "X-Authority-Service-Auth", credential)] }

def request : ServiceAuthRequest :=
  { method := "POST", path := "/v1/service/gifts/list", bodySha256 := bodyDigest.text,
    timestamp := "2026-01-01T00:00:00Z", nonce := "0123456789abcdef", audience := "growthmap-authority",
    authorityId := "primary", credential := credential, peer := some ⟨"payments-edge", "edge"⟩ }

def primitives : Primitives where
  sha256 b := if b = ascii "\x7b\x7d" then bodyDigest else if b.length < 100 then keyDigest else bindingDigest
  verify key s m := decide (key = publicKey ∧ s = signature ∧ some m = signedBytes request)
  b64decode b := if b = credential then some signature else none
  fromisoformat t := (IsoTime.parse t).map IsoTime.DateTime.instant
  urlPath s := (decodeAscii s.path).getD ""
  preflight s := if s.body = ascii "\x7b\x7d" then .ok () else .error 400

def now : Time := 63902822405000000

def identity : ServiceIdentity := ⟨"payments", "growthmap-authority", "primary"⟩

theorem accepted : accept primitives composition now scope = .ok (identity, request) := by
  decide +kernel

theorem collisionFree : CollisionFree primitives identity identity request request := by
  unfold CollisionFree
  decide +kernel

theorem oneMessage : OneMessage primitives composition.publicKey := by
  intro s m m' hm hm'
  have hm := of_decide_eq_true hm
  have hm' := of_decide_eq_true hm'
  exact Option.some.inj (hm.2.2.trans hm'.2.2.symm)

end Twice

/-- A request that is sent again, and has the signature it had. -/
theorem request_encoding_injective_resent :
    accept Twice.primitives Twice.composition Twice.now Twice.scope = .ok (Twice.identity, Twice.request) ∧
      SameFields Twice.request Twice.request :=
  ⟨Twice.accepted,
    (request_encoding_injective Twice.primitives Twice.composition Twice.composition Twice.now Twice.now Twice.scope
      Twice.scope Twice.identity Twice.identity Twice.request Twice.request Twice.accepted Twice.accepted
      Twice.collisionFree Twice.oneMessage).1 rfl⟩

end GrowthMap.EdgeRequests
