import GrowthMap.Lib.IsoTime
import GrowthMap.Desktop.Stores

/- What the desktop relies on of its platform, and that a stored document is read
   back. `plainPlatform` is the platform of the desktop tests, whose encryption
   leaves the text as it is. -/
namespace GrowthMap.Desktop

/-- The range of `Date`. -/
def IsDate (t : Int) : Prop := -8640000000000000 ≤ t ∧ t ≤ 8640000000000000

instance (t : Int) : Decidable (IsDate t) := inferInstanceAs (Decidable (_ ∧ _))

/-- What the platform documents of its functions. -/
structure Platform.Lawful (S : Platform) : Prop where
  decrypt_encrypt : ∀ text, S.decrypt (S.encrypt text) = some text
  toText_toBytes : ∀ text, S.toText (S.toBytes text) = text
  /-- lower case is the only folding of ASCII -/
  fold_ascii : ∀ key : String, key.toList.all (fun c => decide (c.toNat < 128)) → S.fold key = key.toLower
  number_one : S.number "1" = .int 1
  dateParse_empty : S.dateParse "" = none
  dateParse_toISOString : ∀ t, IsDate t → S.dateParse (S.toISOString t) = some t
  /-- the backend loads a document without numbers but integers from its text -/
  loads_written : ∀ j : Json, j.plain → j.distinct → S.loads (S.toBytes (jsonStringify j)) = some j

variable {S : Platform}

/-! What is written is read back -/

/-- A document whose text gives it back. -/
structure Tidy (S : Platform) (j : Json) : Prop where
  plain : j.plain
  distinct : j.distinct
  distinctKeys : distinctKeys S j
  evaluate : evaluate S j = j

variable {j : Json}

theorem jsonParse_tidy (h : Tidy S j) : jsonParse S (jsonStringify j) = some j := by
  rw [jsonParse, jsonStringify, Json.loads_stringify Json.compact h.plain h.distinct, Option.map_some, h.evaluate]

theorem parse_tidy (h : Tidy S j) : parseStrictJson S (jsonStringify j) = some j := by
  have hscan : Json.parse (jsonStringify j) = some j := Json.parse_stringify Json.compact h.plain
  simp only [parseStrictJson, hscan, Option.bind_eq_bind, Option.bind_some, h.distinctKeys, if_true, jsonParse_tidy h]

theorem decryptJson_encryptJson (hS : S.Lawful) (h : Tidy S j) : decryptJson S (encryptJson S j) = some j := by
  rw [encryptJson, decryptJson, hS.decrypt_encrypt, Option.bind_some, parse_tidy h]

theorem readStrict_written (hS : S.Lawful) (h : Tidy S j) :
    readStrict S (.content (S.toBytes (jsonStringify j))) = some j := by
  rw [readStrict, hS.toText_toBytes, parse_tidy h]

theorem evaluate_one (hS : S.Lawful) : evaluate S (.int 1) = .int 1 := by
  rw [evaluate]
  exact hS.number_one

/-- The values the stores write: a text, the number 1, or a list of texts. -/
def isSimple : Json → Bool
  | .str _ => true
  | .int n => decide (n = 1)
  | .arr items => items.all (fun j => (textOf j).isSome)
  | _ => false

def distinctAscii (keys : List String) : Bool :=
  keys.all (fun key => key.toList.all (fun c => decide (c.toNat < 128))) && decide ((keys.map String.toLower).Nodup)

theorem texts_tidy (S : Platform) {items : List Json} (h : items.all (fun j => (textOf j).isSome)) :
    Json.plainItems items ∧ Json.distinctItems items ∧ distinctKeysItems S items ∧ evaluateItems S items = items := by
  induction items with
  | nil => exact ⟨rfl, rfl, rfl, rfl⟩
  | cons j items ih =>
    rw [List.all_cons, Bool.and_eq_true] at h
    obtain ⟨hj, hitems⟩ := h
    obtain ⟨h1, h2, h3, h4⟩ := ih hitems
    cases j with
    | str =>
      refine ⟨?_, ?_, ?_, ?_⟩
      · simpa only [Json.plainItems, Json.plain, Bool.true_and] using h1
      · simpa only [Json.distinctItems, Json.distinct, Bool.true_and] using h2
      · simpa only [distinctKeysItems, distinctKeys, Bool.true_and] using h3
      · simp only [evaluateItems, evaluate, h4]
    | null | bool _ | int _ | real _ | arr _ | obj _ => cases hj

theorem simple_tidy (hS : S.Lawful) (h : isSimple j) : Tidy S j := by
  cases j with
  | str => exact ⟨rfl, rfl, rfl, rfl⟩
  | int n =>
    obtain rfl : n = 1 := by simpa [isSimple] using h
    exact ⟨rfl, rfl, rfl, evaluate_one hS⟩
  | arr =>
    obtain ⟨h1, h2, h3, h4⟩ := texts_tidy S h
    refine ⟨?_, ?_, ?_, ?_⟩
    · simpa only [Json.plain] using h1
    · simpa only [Json.distinct] using h2
    · simpa only [Desktop.distinctKeys] using h3
    · rw [Desktop.evaluate, h4]
  | null | bool _ | real _ | obj _ => cases h

variable {fields : List (String × Json)}

theorem fields_tidy (hS : S.Lawful) (h : ∀ f ∈ fields, isSimple f.2) :
    Json.plainFields fields ∧ Json.distinctFields fields ∧ distinctKeysFields S fields ∧ evaluateFields S fields = fields := by
  induction fields with
  | nil => exact ⟨rfl, rfl, rfl, rfl⟩
  | cons f fields ih =>
    obtain ⟨key, j⟩ := f
    have hj : Tidy S j := simple_tidy hS (h (key, j) List.mem_cons_self)
    obtain ⟨h1, h2, h3, h4⟩ := ih (fun g hg => h g (List.mem_cons_of_mem _ hg))
    refine ⟨?_, ?_, ?_, ?_⟩
    · rw [Json.plainFields, hj.plain, h1, Bool.and_true]
    · rw [Json.distinctFields, hj.distinct, h2, Bool.and_true]
    · rw [distinctKeysFields, hj.distinctKeys, h3, Bool.and_true]
    · rw [evaluateFields, hj.evaluate, h4]

theorem tidy_obj (hS : S.Lawful) (h : ∀ f ∈ fields, isSimple f.2) (keys : List String)
    (hkeys : fields.map Prod.fst = keys) (hdistinct : distinctAscii keys) : Tidy S (.obj fields) := by
  obtain ⟨h1, h2, h3, h4⟩ := fields_tidy hS h
  obtain ⟨hascii, hnodup⟩ := Bool.and_eq_true_iff.mp hdistinct
  have hfold : fields.map (fun f => S.fold f.1) = keys.map String.toLower := by
    rw [← hkeys, List.map_map]
    refine List.map_congr_left (fun f hf => ?_)
    refine hS.fold_ascii f.1 (List.all_eq_true.mp hascii f.1 ?_)
    rw [← hkeys]
    exact List.mem_map_of_mem hf
  have hlower : (keys.map String.toLower).Nodup := of_decide_eq_true hnodup
  refine ⟨?_, ?_, ?_, ?_⟩
  · simpa only [Json.plain] using h1
  · rw [Json.distinct, h2, Bool.and_true, hkeys]
    exact decide_eq_true (List.Nodup.of_map _ hlower)
  · rw [Desktop.distinctKeys, h3, Bool.and_true, hfold]
    exact hnodup
  · rw [Desktop.evaluate, h4]

/-! The platform of the tests -/

def utf8 (text : String) : Bytes := text.toByteArray.data.toList

def ofUtf8 (b : Bytes) : String := (String.fromUTF8? ⟨b.toArray⟩).getD "\uFFFD"

theorem fromUTF8_utf8 (text : String) : String.fromUTF8? ⟨(utf8 text).toArray⟩ = some text := by
  have hbytes : (⟨(utf8 text).toArray⟩ : ByteArray) = text.toByteArray := by simp [utf8]
  rw [hbytes, String.fromUTF8?, dif_pos text.isValidUTF8]
  rfl

theorem ofUtf8_utf8 (text : String) : ofUtf8 (utf8 text) = text := by
  rw [ofUtf8, fromUTF8_utf8, Option.getD_some]

def epochMillis : Int := 62135596800000

/-- `YYYY-MM-DDTHH:mm:ss.sssZ` -/
def isoMillis (d : IsoTime.DateTime) : String :=
  String.ofList (IsoTime.digits 4 d.year ++ '-' :: (IsoTime.digits 2 d.month ++ '-' :: (IsoTime.digits 2 d.day ++
    'T' :: (IsoTime.digits 2 d.hour ++ ':' :: (IsoTime.digits 2 d.minute ++ ':' :: (IsoTime.digits 2 d.second ++
      '.' :: (IsoTime.digits 3 (d.microsecond / 1000) ++ ['Z'])))))))

/-- A time outside the years of four digits is written as the bare number of its
milliseconds. -/
def readMicros (text : String) : Option Int :=
  match Json.parse text with
  | some (.int t) => some (t * 1000)
  | _ => (IsoTime.parse text).map (fun d => d.instant - epochMillis * 1000)

/-- `Date.parse` -/
def readMillis (text : String) : Option Int := (readMicros text).map (fun m => m / 1000)

def orNumber (m : Int) (text : String) : String :=
  if readMicros text = some m then text else jsonStringify (.int (m / 1000))

/-- `toISOString` -/
def writeMillis (t : Int) : String :=
  orNumber (t * 1000) (((IsoTime.ofInstant ((t + epochMillis) * 1000)).map isoMillis).getD "")

/-- `isoformat` of the backend -/
def writeMicros (m : Int) : String :=
  orNumber m (((IsoTime.ofInstant (m + epochMillis * 1000)).map IsoTime.DateTime.isoformat).getD "")

def plainNumber (text : String) : Json :=
  match Json.parse text with
  | some (.int n) => .int n
  | _ => .real text

def plainPlatform : Platform where
  encrypt := utf8
  decrypt b := some (ofUtf8 b)
  toBytes := utf8
  toText := ofUtf8
  fold := String.toLower
  number := plainNumber
  dateParse := readMillis
  toISOString := writeMillis
  loads b := ((String.fromUTF8? ⟨b.toArray⟩).bind Json.parse).filter Json.distinct

theorem readMicros_orNumber (t : Int) (text : String) : readMicros (orNumber (t * 1000) text) = some (t * 1000) := by
  unfold orNumber
  split
  · assumption
  · have hparse : Json.parse (jsonStringify (.int (t * 1000 / 1000))) = some (.int (t * 1000 / 1000)) :=
      Json.parse_stringify Json.compact rfl
    rw [readMicros, hparse]
    dsimp only
    rw [Int.mul_ediv_cancel _ (by decide)]

theorem readMillis_written (t : Int) : readMillis (writeMillis t) = some t := by
  rw [readMillis, writeMillis, readMicros_orNumber, Option.map_some, Int.mul_ediv_cancel _ (by decide)]

theorem plainNumber_one : plainNumber "1" = .int 1 := by
  have htext : jsonStringify (.int 1) = "1" := by decide +kernel
  have hparse : Json.parse "1" = some (.int 1) := by
    rw [← htext]
    exact Json.parse_stringify Json.compact rfl
  rw [plainNumber, hparse]

theorem loads_written (hplain : j.plain) (hdistinct : j.distinct) :
    plainPlatform.loads (utf8 (jsonStringify j)) = some j := by
  have hparse : Json.parse (jsonStringify j) = some j := Json.parse_stringify Json.compact hplain
  simp only [plainPlatform, fromUTF8_utf8, Option.bind_some, hparse, Option.filter_some, hdistinct, if_true]

theorem plainPlatform_lawful : plainPlatform.Lawful where
  decrypt_encrypt text := congrArg some (ofUtf8_utf8 text)
  toText_toBytes := ofUtf8_utf8
  fold_ascii _ _ := rfl
  number_one := plainNumber_one
  dateParse_empty := by decide +kernel
  dateParse_toISOString t _ := readMillis_written t
  loads_written _ hplain hdistinct := loads_written hplain hdistinct

end GrowthMap.Desktop
