import Mathlib.Algebra.GroupWithZero.Nat
import GrowthMap.Lib.JsonText
import GrowthMap.Payments.CanonicalJson

/- One text for one content.

   Two values that are the same to Python, dictionaries being compared without the order of
   their keys, are written alike (`dumps_same`); the keys have to be keys, each once and of
   sixteen-bit units, which those of a document that was read are (`loads_keyed`). The other
   way round a text tells its value: what `dumps` writes derives a tree in which keys are
   sorted (`dumps_derives`), and a text derives one tree, so dictionaries that are written
   alike hold the same under every key (`lookup_of_text`). -/
namespace GrowthMap.PyJson
open JsonGrammar StrictJson Fallible

/-! Code units -/

def Coded (s : Text) : Prop := ∀ n ∈ s, n < 0x10000

variable {s t d k : Text} {n : Nat} {items : List (Text × PyValue)} {v v' : PyValue}

theorem Coded.left (h : Coded (s ++ t)) : Coded s := fun n hn => h n (List.mem_append_left _ hn)

theorem Coded.right (h : Coded (s ++ t)) : Coded t := fun n hn => h n (List.mem_append_right _ hn)

theorem coded_cons : Coded (n :: s) ↔ n < 0x10000 ∧ Coded s := List.forall_mem_cons

def unitsOf (p : Nat) : Text :=
  if p < 0x10000 then [p] else [0xD800 + (p - 0x10000) / 0x400, 0xDC00 + (p - 0x10000) % 0x400]

theorem unitsOf_points (h : Coded s) : (points s).flatMap unitsOf = s := by
  fun_induction points s with
  | case1 => rfl
  | case2 a =>
    rw [List.flatMap_singleton, unitsOf, if_pos (h a List.mem_cons_self)]
  | case3 a b s hpair ih =>
    have hhigh : 0xD800 + (0x10000 + (a - 0xD800) * 0x400 + (b - 0xDC00) - 0x10000) / 0x400 = a := by omega
    have hlow : 0xDC00 + (0x10000 + (a - 0xD800) * 0x400 + (b - 0xDC00) - 0x10000) % 0x400 = b := by omega
    have hlarge : ¬ 0x10000 + (a - 0xD800) * 0x400 + (b - 0xDC00) < 0x10000 := by omega
    rw [List.flatMap_cons, unitsOf, if_neg hlarge, hhigh, hlow, ih (coded_cons.mp (coded_cons.mp h).2).2]
    rfl
  | case4 a b s _ ih =>
    rw [List.flatMap_cons, unitsOf, if_pos (coded_cons.mp h).1, ih (coded_cons.mp h).2]
    rfl

theorem points_injective (hs : Coded s) (ht : Coded t) (h : points s = points t) : s = t := by
  rw [← unitsOf_points hs, h, unitsOf_points ht]

theorem utf16_coded (c : Char) : Coded (utf16 c) := by
  have hc : c.toNat < 0x110000 := by
    rcases c.valid with h | h
    · exact Nat.lt_trans h (by decide)
    · exact h.2
  unfold utf16
  split
  · next h => simpa [Coded] using h
  · simp only [coded_cons]
    exact ⟨by omega, by omega, fun n hn => absurd hn List.not_mem_nil⟩

theorem decode_coded {raw : Bytes} {text : Text} (h : decode raw = some text) : Coded text := by
  obtain ⟨s, -, rfl⟩ := Option.map_eq_some_iff.mp h
  intro n hn
  obtain ⟨c, -, hn⟩ := List.mem_flatMap.mp hn
  exact utf16_coded c n hn

theorem hexVal_lt {c : Nat} (h : JsonGrammar.hexVal c = some n) : n < 16 := by
  unfold JsonGrammar.hexVal at h
  simp only [isDigit_iff, unit, Char.reduceToNat] at h
  split at h
  · cases h
    omega
  split at h
  · cases h
    omega
  split at h
  · cases h
    omega
  · cases h

theorem hex4_lt {w x y z : Nat} (h : JsonGrammar.hex4 w x y z = some n) : n < 0x10000 := by
  obtain ⟨a, ha, h⟩ := Option.bind_eq_some_iff.mp h
  obtain ⟨b, hb, h⟩ := Option.bind_eq_some_iff.mp h
  obtain ⟨c, hc, h⟩ := Option.bind_eq_some_iff.mp h
  obtain ⟨d, hd, h⟩ := Option.bind_eq_some_iff.mp h
  have ha := hexVal_lt ha
  have hb := hexVal_lt hb
  have hc := hexVal_lt hc
  have hd := hexVal_lt hd
  cases h
  omega

theorem unescape_lt {e : Nat} (h : JsonGrammar.unescape e = some n) (he : e < 0x10000) : n < 0x10000 := by
  unfold JsonGrammar.unescape at h
  repeat' split at h
  all_goals cases h
  all_goals omega

theorem chars_coded (h : Chars s d) (hs : Coded s) : Coded d := by
  induction h with
  | nil => exact hs
  | plain _ _ _ _ ih =>
    obtain ⟨hc, hs⟩ := coded_cons.mp hs
    exact coded_cons.mpr ⟨hc, ih hs⟩
  | escape hn _ ih =>
    obtain ⟨he, hs⟩ := coded_cons.mp (coded_cons.mp hs).2
    exact coded_cons.mpr ⟨unescape_lt hn he, ih hs⟩
  | code hn _ ih =>
    simp only [coded_cons] at hs
    exact coded_cons.mpr ⟨hex4_lt hn, ih hs.2.2.2.2.2.2⟩

variable {key : Text}

theorem key_coded (h : Key k key) (hk : Coded k) : Coded key := by
  cases h with
  | mk _ hc => exact chars_coded hc (coded_cons.mp hk.right).2.left

def CodedKeys : Tree → Prop
  | .obj members => ∀ m ∈ members, Coded m.1
  | _ => True

section Grammar

variable {words : Words}

mutual

theorem value_coded {t : Text} {j : Tree} : Value words t j → Coded t → Throughout CodedKeys j
  | .word _, _ => throughout_word.mpr trivial
  | .num _, _ => throughout_num.mpr trivial
  | .str _, _ => throughout_str.mpr trivial
  | .noItems _, _ => throughout_arr.mpr ⟨trivial, by simp⟩
  | .arr hs, h => throughout_arr.mpr ⟨trivial, items_coded hs (coded_cons.mp h).2.left⟩
  | .noMembers _, _ => throughout_obj.mpr ⟨by simp [CodedKeys], by simp⟩
  | .obj hs, h =>
    have hmembers := members_coded hs (coded_cons.mp h).2.left
    throughout_obj.mpr ⟨fun m hm => (hmembers m hm).1, fun m hm => (hmembers m hm).2⟩

theorem items_coded {t : Text} {items : List Tree} : Items words t items → Coded t → ∀ j ∈ items, Throughout CodedKeys j
  | .last _ hv _, h => by simpa using value_coded hv h.right.left
  | .cons _ hv _ hs, h =>
    List.forall_mem_cons.mpr ⟨value_coded hv h.right.left, items_coded hs (coded_cons.mp h.right.right.right).2⟩

theorem members_coded {t : Text} {members : List (Text × Tree)} :
    Members words t members → Coded t → ∀ m ∈ members, Coded m.1 ∧ Throughout CodedKeys m.2
  | .last hk _ hv _, h => by simpa using ⟨key_coded hk h.left, value_coded hv h.right.right.left⟩
  | .cons hk _ hv _ hs, h => List.forall_mem_cons.mpr ⟨⟨key_coded hk h.left, value_coded hv h.right.right.left⟩,
      members_coded hs (coded_cons.mp h.right.right.right.right).2⟩

end

theorem text_coded {j : Tree} (h : JsonText words t j) (ht : Coded t) : Throughout CodedKeys j := by
  cases h with
  | mk _ hv => exact value_coded hv ht.right.left

end Grammar

/-! Values with proper keys -/

mutual

/-- In every dictionary each key stands once, and is made of units. -/
def Keyed : PyValue → Prop
  | .list items => KeyedItems items
  | .dict items => (items.map Prod.fst).Nodup ∧ KeyedMembers items
  | _ => True

def KeyedItems : List PyValue → Prop
  | [] => True
  | v :: items => Keyed v ∧ KeyedItems items

def KeyedMembers : List (Text × PyValue) → Prop
  | [] => True
  | (key, v) :: items => (Coded key ∧ Keyed v) ∧ KeyedMembers items

end

theorem keyedMembers_iff : KeyedMembers items ↔ ∀ item ∈ items, Coded item.1 ∧ Keyed item.2 := by
  induction items with
  | nil => simp [KeyedMembers]
  | cons item items ih => rw [KeyedMembers, List.forall_mem_cons, ih]

section Build

variable {fold : Text → Text}

mutual

theorem build_keyed : ∀ (j : Tree) {v : PyValue}, build fold j = .ok v → Throughout CodedKeys j → Keyed v
  | .word w, v, h, _ => by
    cases h
    trivial
  | .num lexeme, v, h, _ => by
    simp only [build, number] at h
    split at h
    · cases h
      trivial
    · obtain ⟨-, h⟩ := guard_ok h
      cases h
      trivial
  | .str s, v, h, _ => by
    cases h
    trivial
  | .arr items, v, h, hj => by
    obtain ⟨vs, hvs, rfl⟩ := map_eq_ok.mp h
    exact buildItems_keyed items hvs (throughout_arr.mp hj).2
  | .obj members, v, h, hj => by
    obtain ⟨items, hitems, h⟩ := bind_ok h
    obtain ⟨_, hpairs, rfl⟩ := map_eq_ok.mp h
    obtain ⟨hapart, rfl⟩ := pairs_ok.mp hpairs
    have hj := throughout_obj.mp hj
    exact ⟨hapart.imp fun h => h.1, buildMembers_keyed members hitems fun m hm => ⟨hj.1 m hm, hj.2 m hm⟩⟩

theorem buildItems_keyed : ∀ (items : List Tree) {vs : List PyValue}, buildItems fold items = .ok vs →
    (∀ j ∈ items, Throughout CodedKeys j) → KeyedItems vs
  | [], vs, h, _ => by
    cases h
    trivial
  | j :: items, vs, h, hj => by
    obtain ⟨v, hv, h⟩ := bind_ok h
    obtain ⟨vs, hvs, rfl⟩ := map_eq_ok.mp h
    obtain ⟨hj, hitems⟩ := List.forall_mem_cons.mp hj
    exact ⟨build_keyed j hv hj, buildItems_keyed items hvs hitems⟩

theorem buildMembers_keyed : ∀ (members : List (Text × Tree)) {items : List (Text × PyValue)},
    buildMembers fold members = .ok items → (∀ m ∈ members, Coded m.1 ∧ Throughout CodedKeys m.2) → KeyedMembers items
  | [], items, h, _ => by
    cases h
    trivial
  | (key, j) :: members, items, h, hm => by
    obtain ⟨v, hv, h⟩ := bind_ok h
    obtain ⟨items, hitems, rfl⟩ := map_eq_ok.mp h
    obtain ⟨⟨hkey, hj⟩, hmembers⟩ := List.forall_mem_cons.mp hm
    exact ⟨⟨hkey, build_keyed j hv hj⟩, buildMembers_keyed members hitems hmembers⟩

end

theorem loads_keyed {raw : Bytes} {text : Text} {v : PyValue} (hd : decode raw = some text)
    (h : strictJsonLoads fold text = .ok v) : Keyed v := by
  unfold strictJsonLoads at h
  split at h
  · next j hj => exact build_keyed j h (text_coded (readText_iff.mp hj) (decode_coded hd))
  · cases h

end Build

/-! Equal contents -/

mutual

/-- `==` of strings, integers, lists and dictionaries. -/
def Same : PyValue → PyValue → Prop
  | .list items, w => ∃ items', w = .list items' ∧ SameItems items items'
  | .dict items, w => ∃ items', w = .dict items' ∧ items.length = items'.length ∧ SameMembers items items'
  | v, w => w = v

def SameItems : List PyValue → List PyValue → Prop
  | [], items' => items' = []
  | v :: items, items' => ∃ v' rest, items' = v' :: rest ∧ Same v v' ∧ SameItems items rest

def SameMembers : List (Text × PyValue) → List (Text × PyValue) → Prop
  | [], _ => True
  | (key, v) :: items, items' => (∃ v', (key, v') ∈ items' ∧ Same v v') ∧ SameMembers items items'

end

instance : Std.Total keyLe := ⟨fun a b => le_total (points a.1) (points b.1)⟩

instance : IsTrans (Text × Text) keyLe := ⟨fun _ _ _ h h' => le_trans (α := List Nat) h h'⟩

section Dumps

variable {floats : Floats} {texts : List (Text × Text)}

theorem dumpsMembers_keys
    (h : dumpsMembers floats items = some texts) : texts.map Prod.fst = items.map Prod.fst := by
  induction items generalizing texts with
  | nil =>
    rw [dumpsMembers] at h
    cases h
    rfl
  | cons item items ih =>
    rw [dumpsMembers] at h
    obtain ⟨t, -, h⟩ := Option.bind_eq_some_iff.mp h
    obtain ⟨rest, hrest, h⟩ := Option.bind_eq_some_iff.mp h
    cases h
    rw [List.map_cons, List.map_cons, ih hrest]

theorem dumpsMembers_mem (h : dumpsMembers floats items = some texts) (hmem : (key, v) ∈ items) :
    ∃ t, dumps floats v = some t ∧ (key, t) ∈ texts := by
  induction items generalizing texts with
  | nil => exact absurd hmem List.not_mem_nil
  | cons item items ih =>
    rw [dumpsMembers] at h
    obtain ⟨t, ht, h⟩ := Option.bind_eq_some_iff.mp h
    obtain ⟨rest, hrest, h⟩ := Option.bind_eq_some_iff.mp h
    cases h
    rcases List.mem_cons.mp hmem with heq | hmem
    · cases heq
      exact ⟨t, ht, List.mem_cons_self⟩
    · obtain ⟨u, hu, hmem⟩ := ih hrest hmem
      exact ⟨u, hu, List.mem_cons_of_mem _ hmem⟩

theorem sorted_alike {texts' : List (Text × Text)} (hnodup : (texts.map Prod.fst).Nodup)
    (hcoded : ∀ t ∈ texts, Coded t.1) (hlen : texts'.length ≤ texts.length) (hsub : ∀ t ∈ texts, t ∈ texts') :
    texts.insertionSort keyLe = texts'.insertionSort keyLe := by
  have hperm : texts.Perm texts' := (List.subperm_of_subset hnodup.of_map hsub).perm_of_length_le hlen
  have hall : (texts.insertionSort keyLe).Perm (texts'.insertionSort keyLe) :=
    (List.perm_insertionSort keyLe texts).trans (hperm.trans (List.perm_insertionSort keyLe texts').symm)
  refine List.Perm.eq_of_pairwise ?_ (List.pairwise_insertionSort keyLe texts) (List.pairwise_insertionSort keyLe texts') hall
  intro a b ha hb hab hba
  have ha := (List.mem_insertionSort keyLe).mp ha
  have hb := hperm.mem_iff.mpr ((List.mem_insertionSort keyLe).mp hb)
  -- in one list of distinct keys, equal keys are of one member
  have hkey : a.1 = b.1 := points_injective (hcoded a ha) (hcoded b hb) (le_antisymm hab hba)
  exact List.inj_on_of_nodup_map hnodup ha hb hkey

mutual

/-- What is the same is written alike. -/
theorem dumps_same : ∀ (v : PyValue) {v' : PyValue} {t t' : Text}, Same v v' → Keyed v → Keyed v' →
    dumps floats v = some t → dumps floats v' = some t' → t = t'
  | .constant _, _, _, _, hs, _, _, h, h' => Option.some.inj (h.symm.trans (hs ▸ h'))
  | .int _, _, _, _, hs, _, _, h, h' => Option.some.inj (h.symm.trans (hs ▸ h'))
  | .float _, _, _, _, hs, _, _, h, h' => Option.some.inj (h.symm.trans (hs ▸ h'))
  | .str _, _, _, _, hs, _, _, h, h' => Option.some.inj (h.symm.trans (hs ▸ h'))
  | .list items, v', t, t', hs, hk, hk', h, h' => by
    obtain ⟨items', rfl, hs⟩ := hs
    rw [dumps] at h h'
    obtain ⟨texts, htexts, h⟩ := Option.bind_eq_some_iff.mp h
    obtain ⟨texts', htexts', h'⟩ := Option.bind_eq_some_iff.mp h'
    cases h
    cases h'
    rw [dumpsItems_same items hs hk hk' htexts htexts']
  | .dict items, v', t, t', hs, hk, hk', h, h' => by
    obtain ⟨items', rfl, hlen, hs⟩ := hs
    rw [dumps] at h h'
    obtain ⟨texts, htexts, h⟩ := Option.bind_eq_some_iff.mp h
    obtain ⟨texts', htexts', h'⟩ := Option.bind_eq_some_iff.mp h'
    cases h
    cases h'
    obtain ⟨hnodup, hmembers⟩ := hk
    have hkeys := dumpsMembers_keys htexts
    have hcount : texts.length = items.length := by simpa using congrArg List.length hkeys
    have hcount' : texts'.length = items'.length := by simpa using congrArg List.length (dumpsMembers_keys htexts')
    have hcoded : ∀ t ∈ texts, Coded t.1 := by
      intro t ht
      have hmem := List.mem_map_of_mem (f := Prod.fst) ht
      rw [hkeys] at hmem
      obtain ⟨item, hitem, heq⟩ := List.mem_map.mp hmem
      exact heq ▸ (keyedMembers_iff.mp hmembers item hitem).1
    rw [sorted_alike (hkeys ▸ hnodup) hcoded (by omega) (dumpsMembers_same items hs hmembers hk'.2 htexts htexts')]

theorem dumpsItems_same : ∀ (items : List PyValue) {items' : List PyValue} {texts texts' : List Text}, SameItems items items' →
    KeyedItems items → KeyedItems items' → dumpsItems floats items = some texts → dumpsItems floats items' = some texts' →
    texts = texts'
  | [], _, _, _, hs, _, _, h, h' => Option.some.inj (h.symm.trans (hs ▸ h'))
  | v :: items, _, texts, texts', hs, hk, hk', h, h' => by
    obtain ⟨v', rest, rfl, hv, hs⟩ := hs
    rw [dumpsItems] at h h'
    obtain ⟨t, ht, h⟩ := Option.bind_eq_some_iff.mp h
    obtain ⟨t', ht', h'⟩ := Option.bind_eq_some_iff.mp h'
    obtain ⟨us, hus, h⟩ := Option.bind_eq_some_iff.mp h
    obtain ⟨us', hus', h'⟩ := Option.bind_eq_some_iff.mp h'
    cases h
    cases h'
    rw [dumps_same v hv hk.1 hk'.1 ht ht', dumpsItems_same items hs hk.2 hk'.2 hus hus']

theorem dumpsMembers_same : ∀ (items : List (Text × PyValue)) {items' : List (Text × PyValue)} {texts texts' : List (Text × Text)},
    SameMembers items items' → KeyedMembers items → KeyedMembers items' → dumpsMembers floats items = some texts →
    dumpsMembers floats items' = some texts' → ∀ t ∈ texts, t ∈ texts'
  | [], _, _, _, _, _, _, h, _ => by
    rw [dumpsMembers] at h
    cases h
    simp
  | (key, v) :: items, items', texts, texts', hs, hk, hk', h, h' => by
    obtain ⟨⟨v', hmem, hv⟩, hs⟩ := hs
    rw [dumpsMembers] at h
    obtain ⟨t, ht, h⟩ := Option.bind_eq_some_iff.mp h
    obtain ⟨us, hus, h⟩ := Option.bind_eq_some_iff.mp h
    cases h
    obtain ⟨t', ht', hin⟩ := dumpsMembers_mem h' hmem
    have heq := dumps_same v hv hk.1.2 (keyedMembers_iff.mp hk' _ hmem).2 ht ht'
    exact List.forall_mem_cons.mpr ⟨heq ▸ hin, dumpsMembers_same items hs hk.2 hk' hus h'⟩

end

end Dumps

/-! Texts as trees -/

def lexeme (n : Int) : Text := (Json.renderInt n).map unit

mutual

def treeOf : PyValue → Tree
  | .constant w => .word w
  | .int n => .num (lexeme n)
  | .float l => .num l
  | .str s => .str s
  | .list items => .arr (treeItems items)
  | .dict items => .obj ((treeMembers items).insertionSort (fun a b => points a.1 ≤ points b.1))

def treeItems : List PyValue → List Tree
  | [] => []
  | v :: items => treeOf v :: treeItems items

def treeMembers : List (Text × PyValue) → List (Text × Tree)
  | [] => []
  | (key, v) :: items => (key, treeOf v) :: treeMembers items

end

theorem treeMembers_eq (items : List (Text × PyValue)) : treeMembers items = items.map (fun item => (item.1, treeOf item.2)) := by
  induction items with
  | nil => rfl
  | cons item items ih => rw [treeMembers, ih, List.map_cons]

def Visible (s : Text) : Prop := ∀ n ∈ s, n < 127

instance (s : Text) : Decidable (Visible s) := inferInstanceAs (Decidable (∀ n ∈ s, n < 127))

theorem Visible.append (hs : Visible s) (ht : Visible t) : Visible (s ++ t) := by
  intro n hn
  rcases List.mem_append.mp hn with hn | hn
  · exact hs n hn
  · exact ht n hn

theorem visible_cons : Visible (n :: s) ↔ n < 127 ∧ Visible s := List.forall_mem_cons

theorem visible_nil : Visible [] := fun _ h => absurd h List.not_mem_nil

mutual

/-- Strings and keys in visible ASCII, integers that are not too long, lists and dictionaries. -/
def Ordinary : PyValue → Prop
  | .constant _ => False
  | .int n => (Nat.toDigits 10 n.natAbs).length ≤ maxStrDigits
  | .float _ => False
  | .str s => Visible s
  | .list items => OrdinaryItems items
  | .dict items => OrdinaryMembers items

def OrdinaryItems : List PyValue → Prop
  | [] => True
  | v :: items => Ordinary v ∧ OrdinaryItems items

def OrdinaryMembers : List (Text × PyValue) → Prop
  | [] => True
  | (key, v) :: items => (Visible key ∧ Ordinary v) ∧ OrdinaryMembers items

end

mutual

def decOrdinary : (v : PyValue) → Decidable (Ordinary v)
  | .constant _ => instDecidableFalse
  | .int n => Nat.decLe (Nat.toDigits 10 n.natAbs).length maxStrDigits
  | .float _ => instDecidableFalse
  | .str s => inferInstanceAs (Decidable (Visible s))
  | .list items => decOrdinaryItems items
  | .dict items => decOrdinaryMembers items

def decOrdinaryItems : (items : List PyValue) → Decidable (OrdinaryItems items)
  | [] => instDecidableTrue
  | v :: items => @instDecidableAnd _ _ (decOrdinary v) (decOrdinaryItems items)

def decOrdinaryMembers : (items : List (Text × PyValue)) → Decidable (OrdinaryMembers items)
  | [] => instDecidableTrue
  | (key, v) :: items =>
    @instDecidableAnd _ _ (@instDecidableAnd _ _ (inferInstanceAs (Decidable (Visible key))) (decOrdinary v)) (decOrdinaryMembers items)

end

instance (v : PyValue) : Decidable (Ordinary v) := decOrdinary v

theorem ordinaryMembers_iff :
    OrdinaryMembers items ↔ ∀ item ∈ items, Visible item.1 ∧ Ordinary item.2 := by
  induction items with
  | nil => simp [OrdinaryMembers]
  | cons item items ih => rw [OrdinaryMembers, List.forall_mem_cons, ih]

theorem isDigit_unit {c : Char} (h : c.isDigit = true) : JsonGrammar.isDigit (unit c) = true := by
  rw [isDigit_iff]
  exact Char.isDigit_iff_toNat.mp h

theorem whole_digits (k : Nat) : Whole ((Nat.toDigits 10 k).map unit) := by
  have hdigits : ∀ c ∈ Nat.toDigits 10 k, c.isDigit := fun c hc => Nat.isDigit_of_mem_toDigits (by omega) (by omega) hc
  have hhead := Json.toDigits_head k
  cases hd : Nat.toDigits 10 k with
  | nil => exact absurd hd Nat.toDigits_ne_nil
  | cons d ds =>
    rw [hd] at hdigits hhead
    by_cases hzero : d = '0'
    · have hnil : ds = [] := by
        cases ds with
        | nil => rfl
        | cons => exact absurd ⟨congrArg some hzero, by simp⟩ hhead
      rw [hzero, hnil]
      exact .zero
    · refine .many (isDigit_unit (hdigits d List.mem_cons_self)) (fun heq => hzero (Char.toNat_inj.mp heq)) ?_
      intro n hn
      obtain ⟨c, hc, rfl⟩ := List.mem_map.mp hn
      exact isDigit_unit (hdigits c (List.mem_cons_of_mem d hc))

theorem number_lexeme (n : Int) : Number (lexeme n) := by
  have hunsigned : Unsigned ((Nat.toDigits 10 n.natAbs).map unit) := by
    simpa using Unsigned.mk (whole_digits n.natAbs) .none .none
  unfold lexeme Json.renderInt
  split
  · exact .minus hunsigned
  · exact .plain hunsigned

/-- A unit and its escape. -/
theorem chars_escapeUnit (n : Nat) (h : Chars s d) : Chars (escapeUnit n ++ s) (n :: d) := by
  have hshort : ∀ e n, JsonGrammar.unescape e = some n → escapeUnit n = [unit '\\', e] → Chars (escapeUnit n ++ s) (n :: d) := by
    intro e n he hn
    rw [hn]
    exact .escape he h
  by_cases hquote : n = unit '"'
  · exact hquote ▸ hshort (unit '"') _ (by decide) (by decide)
  by_cases hbackslash : n = unit '\\'
  · exact hbackslash ▸ hshort (unit '\\') _ (by decide) (by decide)
  by_cases hcontrol : n < 32
  · by_cases hmark : n = 10 ∨ n = 13 ∨ n = 9 ∨ n = 8 ∨ n = 12
    · rcases hmark with rfl | rfl | rfl | rfl | rfl
      · exact hshort (unit 'n') _ (by decide) (by decide)
      · exact hshort (unit 'r') _ (by decide) (by decide)
      · exact hshort (unit 't') _ (by decide) (by decide)
      · exact hshort (unit 'b') _ (by decide) (by decide)
      · exact hshort (unit 'f') _ (by decide) (by decide)
    · -- the other control characters are written with their code
      have hcode : ∀ n < 32, ¬ (n = 10 ∨ n = 13 ∨ n = 9 ∨ n = 8 ∨ n = 12) → escapeUnit n =
            [unit '\\', unit 'u', unit '0', unit '0', unit (Json.hexDigit (n / 16)), unit (Json.hexDigit (n % 16))] ∧
          JsonGrammar.hex4 (unit '0') (unit '0') (unit (Json.hexDigit (n / 16))) (unit (Json.hexDigit (n % 16))) = some n := by
        decide
      obtain ⟨hn, hread⟩ := hcode n hcontrol hmark
      rw [hn]
      exact .code hread h
  · have hplain : escapeUnit n = [n] := by
      rw [escapeUnit, if_neg hquote, if_neg hbackslash, if_neg (by omega), if_neg (by omega), if_neg (by omega),
        if_neg (by omega), if_neg (by omega), if_neg hcontrol]
    rw [hplain]
    exact .plain (Nat.le_of_not_lt hcontrol) hquote hbackslash h

theorem chars_escaped (s : Text) : Chars (s.flatMap escapeUnit) s := by
  induction s with
  | nil => exact .nil
  | cons n s ih =>
    rw [List.flatMap_cons]
    exact chars_escapeUnit n ih

theorem blanks_nil : Blanks [] := fun _ h => absurd h List.not_mem_nil

section Derives

variable {words : Words}

theorem items_commas : ∀ {texts : List Text} {trees : List Tree}, List.Forall₂ (Value words) texts trees → texts ≠ [] →
    Items words (commas texts) trees
  | [t], _, .cons ht .nil, _ => by
    simpa [commas] using Items.last blanks_nil ht blanks_nil
  | t :: u :: texts, _, .cons ht (.cons hu hs), _ => by
    have hrest := items_commas (.cons hu hs) (List.cons_ne_nil u texts)
    simpa [commas] using Items.cons blanks_nil ht blanks_nil hrest

theorem members_commas : ∀ {z : List (Text × Text × Tree)}, (∀ e ∈ z, Value words e.2.1 e.2.2) → z ≠ [] →
    Members words (commas (z.map (fun e => quoted e.1 ++ unit ':' :: e.2.1))) (z.map (fun e => (e.1, e.2.2)))
  | [e], h, _ => by
    have hkey := Key.mk blanks_nil (chars_escaped e.1) blanks_nil
    simpa [commas, quoted] using Members.last hkey blanks_nil (h e List.mem_cons_self) blanks_nil
  | e :: f :: z, h, _ => by
    have hkey := Key.mk blanks_nil (chars_escaped e.1) blanks_nil
    have hrest := members_commas (fun g hg => h g (List.mem_cons_of_mem e hg)) (List.cons_ne_nil f z)
    simpa [commas, quoted] using Members.cons hkey blanks_nil (h e List.mem_cons_self) blanks_nil hrest

end Derives

section Tells

variable {floats : Floats}

mutual

/-- What is written derives the tree of the value. -/
theorem dumps_derives : ∀ (v : PyValue) {t : Text}, Ordinary v → dumps floats v = some t → Value pyWords t (treeOf v)
  | .constant _, _, hv, _ => absurd hv id
  | .float _, _, hv, _ => absurd hv id
  | .int n, t, _, h => by
    rw [dumps] at h
    split at h
    · cases h
    · cases h
      exact .num (number_lexeme n)
  | .str s, t, _, h => by
    rw [dumps] at h
    cases h
    exact .str (chars_escaped s)
  | .list items, t, hv, h => by
    rw [dumps] at h
    obtain ⟨texts, htexts, h⟩ := Option.bind_eq_some_iff.mp h
    cases h
    have hall := dumpsItems_derives items hv htexts
    rw [treeOf]
    generalize treeItems items = trees at hall
    cases hall with
    | nil => exact .noItems blanks_nil
    | cons ht hs => exact .arr (items_commas (.cons ht hs) (List.cons_ne_nil _ _))
  | .dict items, t, hv, h => by
    rw [dumps] at h
    obtain ⟨texts, htexts, h⟩ := Option.bind_eq_some_iff.mp h
    cases h
    obtain ⟨z, htexts, htree, hz⟩ := dumpsMembers_derives items hv htexts
    -- texts and trees are sorted by the same keys
    let le : Text × Text × Tree → Text × Text × Tree → Prop := fun a b => points a.1 ≤ points b.1
    have hsorted : texts.insertionSort keyLe = (z.insertionSort le).map (fun e => (e.1, e.2.1)) := by
      rw [htexts]
      exact (List.map_insertionSort le keyLe (fun e => (e.1, e.2.1)) z fun _ _ _ _ => Iff.rfl).symm
    have htrees : (treeMembers items).insertionSort (fun a b => points a.1 ≤ points b.1) =
        (z.insertionSort le).map (fun e => (e.1, e.2.2)) := by
      rw [htree]
      exact (List.map_insertionSort le _ (fun e => (e.1, e.2.2)) z fun _ _ _ _ => Iff.rfl).symm
    rw [treeOf, hsorted, htrees, List.map_map]
    cases hnil : z.insertionSort le with
    | nil => exact .noMembers blanks_nil
    | cons e es =>
      refine .obj (members_commas ?_ (List.cons_ne_nil e es))
      intro f hf
      exact hz f ((List.mem_insertionSort le).mp (hnil ▸ hf))

theorem dumpsItems_derives : ∀ (items : List PyValue) {texts : List Text}, OrdinaryItems items →
    dumpsItems floats items = some texts → List.Forall₂ (Value pyWords) texts (treeItems items)
  | [], _, _, h => by
    rw [dumpsItems] at h
    cases h
    exact .nil
  | v :: items, _, hv, h => by
    rw [dumpsItems] at h
    obtain ⟨t, ht, h⟩ := Option.bind_eq_some_iff.mp h
    obtain ⟨rest, hrest, h⟩ := Option.bind_eq_some_iff.mp h
    cases h
    exact .cons (dumps_derives v hv.1 ht) (dumpsItems_derives items hv.2 hrest)

theorem dumpsMembers_derives : ∀ (items : List (Text × PyValue)) {texts : List (Text × Text)}, OrdinaryMembers items →
    dumpsMembers floats items = some texts → ∃ z : List (Text × Text × Tree), texts = z.map (fun e => (e.1, e.2.1)) ∧
      treeMembers items = z.map (fun e => (e.1, e.2.2)) ∧ ∀ e ∈ z, Value pyWords e.2.1 e.2.2
  | [], _, _, h => by
    rw [dumpsMembers] at h
    cases h
    exact ⟨[], rfl, rfl, by simp⟩
  | (key, v) :: items, _, hv, h => by
    rw [dumpsMembers] at h
    obtain ⟨t, ht, h⟩ := Option.bind_eq_some_iff.mp h
    obtain ⟨rest, hrest, h⟩ := Option.bind_eq_some_iff.mp h
    cases h
    obtain ⟨z, rfl, htree, hz⟩ := dumpsMembers_derives items hv.2 hrest
    refine ⟨(key, t, treeOf v) :: z, rfl, ?_, List.forall_mem_cons.mpr ⟨dumps_derives v hv.1.2 ht, hz⟩⟩
    rw [treeMembers, htree, List.map_cons]

end

theorem tree_of_text (hv : Ordinary v) (hv' : Ordinary v') (h : dumps floats v = some t)
    (h' : dumps floats v' = some t) : treeOf v = treeOf v' := by
  have htext : ∀ {w : PyValue}, Ordinary w → dumps floats w = some t → JsonText pyWords t (treeOf w) := by
    intro w hw ht
    simpa using JsonText.mk blanks_nil (dumps_derives w hw ht) blanks_nil
  exact (htext hv h).unique (htext hv' h')

theorem loads_dumps {fold : Text → Text} (hv : Ordinary v) (h : dumps floats v = some t) :
    strictJsonLoads fold t = build fold (treeOf v) := by
  have htext : JsonText pyWords t (treeOf v) := by
    simpa using JsonText.mk blanks_nil (dumps_derives v hv h) blanks_nil
  rw [strictJsonLoads, readText_iff.mpr htext]

/-! The size of a text -/

mutual

def room : PyValue → Nat
  | .constant w => w.length
  | .int n => (Nat.toDigits 10 n.natAbs).length + 1
  | .float lexeme => lexeme.length
  | .str s => 6 * s.length + 2
  | .list items => roomItems items + 2
  | .dict items => roomMembers items + 2

def roomItems : List PyValue → Nat
  | [] => 0
  | v :: items => room v + 1 + roomItems items

def roomMembers : List (Text × PyValue) → Nat
  | [] => 0
  | (key, v) :: items => (6 * key.length + 2) + 1 + room v + 1 + roomMembers items

end

theorem escapeUnit_length (n : Nat) : (escapeUnit n).length ≤ 6 := by
  unfold escapeUnit
  split_ifs <;> simp [units]

theorem quoted_length (s : Text) : (quoted s).length ≤ 6 * s.length + 2 := by
  have hbody : (s.flatMap escapeUnit).length ≤ 6 * s.length := by
    induction s with
    | nil => simp
    | cons n =>
      have := escapeUnit_length n
      rw [List.flatMap_cons, List.length_append, List.length_cons]
      omega
  simp only [quoted, List.length_cons, List.length_append, List.length_nil]
  omega

theorem lexeme_length (n : Int) : (lexeme n).length ≤ (Nat.toDigits 10 n.natAbs).length + 1 := by
  rw [lexeme, List.length_map, Json.renderInt]
  split
  · exact Nat.le_refl _
  · exact Nat.le_succ _

theorem commas_length (ts : List Text) : (commas ts).length ≤ (ts.map (fun t => t.length + 1)).sum := by
  induction ts with
  | nil => simp [commas]
  | cons t ts =>
    cases ts with
    | nil => simp [commas]
    | cons =>
      rw [commas, List.length_append, List.length_cons, List.map_cons, List.sum_cons]
      omega

mutual

/-- Ordinary values are written, and fit. -/
theorem dumps_fits : ∀ v : PyValue, Ordinary v → ∃ t, dumps floats v = some t ∧ t.length ≤ room v
  | .constant _, hv => absurd hv id
  | .float _, hv => absurd hv id
  | .int n, hv => by
    rw [dumps, if_neg (Nat.not_lt.mpr hv)]
    exact ⟨_, rfl, lexeme_length n⟩
  | .str s, _ => ⟨quoted s, rfl, quoted_length s⟩
  | .list items, hv => by
    obtain ⟨texts, htexts, hlength⟩ := dumpsItems_fits items hv
    refine ⟨unit '[' :: (commas texts ++ [unit ']']), by simp [dumps, htexts], ?_⟩
    have hcommas := commas_length texts
    simp only [List.length_cons, List.length_append, List.length_nil, room]
    omega
  | .dict items, hv => by
    obtain ⟨texts, htexts, hlength⟩ := dumpsMembers_fits items hv
    refine ⟨_, by rw [dumps, htexts]; rfl, ?_⟩
    have hcommas := commas_length ((texts.insertionSort keyLe).map (fun t => quoted t.1 ++ unit ':' :: t.2))
    have hsum : (((texts.insertionSort keyLe).map (fun t => quoted t.1 ++ unit ':' :: t.2)).map (fun t => t.length + 1)).sum =
        (texts.map (fun t => (quoted t.1).length + 1 + t.2.length + 1)).sum := by
      rw [List.map_map]
      refine (((List.perm_insertionSort keyLe texts).map _).sum_nat).trans (congrArg List.sum (List.map_congr_left fun t _ => ?_))
      simp only [Function.comp_apply, List.length_append, List.length_cons]
      omega
    simp only [List.length_cons, List.length_append, List.length_nil, room]
    omega

theorem dumpsItems_fits : ∀ items : List PyValue, OrdinaryItems items →
    ∃ texts, dumpsItems floats items = some texts ∧ (texts.map (fun t => t.length + 1)).sum ≤ roomItems items
  | [], _ => ⟨[], rfl, Nat.le_refl _⟩
  | v :: items, hv => by
    obtain ⟨t, ht, hroom⟩ := dumps_fits v hv.1
    obtain ⟨rest, hrest, hsum⟩ := dumpsItems_fits items hv.2
    refine ⟨t :: rest, by simp [dumpsItems, ht, hrest], ?_⟩
    rw [List.map_cons, List.sum_cons, roomItems]
    omega

theorem dumpsMembers_fits : ∀ items : List (Text × PyValue), OrdinaryMembers items → ∃ texts,
    dumpsMembers floats items = some texts ∧
      (texts.map (fun t => (quoted t.1).length + 1 + t.2.length + 1)).sum ≤ roomMembers items
  | [], _ => ⟨[], rfl, Nat.le_refl _⟩
  | (key, v) :: items, hv => by
    obtain ⟨t, ht, hroom⟩ := dumps_fits v hv.1.2
    obtain ⟨rest, hrest, hsum⟩ := dumpsMembers_fits items hv.2
    have hkey := quoted_length key
    refine ⟨(key, t) :: rest, by simp [dumpsMembers, ht, hrest], ?_⟩
    simp only [List.map_cons, List.sum_cons, roomMembers]
    omega

end

/-! Visible texts -/

theorem escapeUnit_visible (h : n < 127) : Visible (escapeUnit n) := by
  revert n
  decide

theorem quoted_visible (h : Visible s) : Visible (quoted s) := by
  refine visible_cons.mpr ⟨by decide, Visible.append ?_ (by decide)⟩
  intro n hn
  obtain ⟨m, hm, hn⟩ := List.mem_flatMap.mp hn
  exact escapeUnit_visible (h m hm) n hn

theorem lexeme_visible (n : Int) : Visible (lexeme n) := by
  have hdigits : ∀ c ∈ Nat.toDigits 10 n.natAbs, unit c < 127 := by
    intro c hc
    have hdigit := isDigit_iff.mp (isDigit_unit (Nat.isDigit_of_mem_toDigits (by omega) (by omega) hc))
    omega
  intro m hm
  obtain ⟨c, hc, rfl⟩ := List.mem_map.mp hm
  unfold Json.renderInt at hc
  split at hc
  · rcases List.mem_cons.mp hc with rfl | hc
    · decide
    · exact hdigits c hc
  · exact hdigits c hc

theorem commas_visible {ts : List Text} (h : ∀ t ∈ ts, Visible t) : Visible (commas ts) := by
  induction ts with
  | nil => exact visible_nil
  | cons t ts ih =>
    have hrest := ih fun u hu => h u (List.mem_cons_of_mem _ hu)
    cases ts with
    | nil => exact h t List.mem_cons_self
    | cons =>
      rw [commas]
      exact (h t List.mem_cons_self).append (visible_cons.mpr ⟨by decide, hrest⟩)

mutual

theorem dumps_visible : ∀ (v : PyValue) {t : Text}, Ordinary v → dumps floats v = some t → Visible t
  | .constant _, _, hv, _ => absurd hv id
  | .float _, _, hv, _ => absurd hv id
  | .int n, t, _, h => by
    rw [dumps] at h
    split at h
    · cases h
    · cases h
      exact lexeme_visible n
  | .str s, t, hv, h => by
    rw [dumps] at h
    cases h
    exact quoted_visible hv
  | .list items, t, hv, h => by
    rw [dumps] at h
    obtain ⟨texts, htexts, h⟩ := Option.bind_eq_some_iff.mp h
    cases h
    have hall := commas_visible (dumpsItems_visible items hv htexts)
    exact visible_cons.mpr ⟨by decide, hall.append (by decide)⟩
  | .dict items, t, hv, h => by
    rw [dumps] at h
    obtain ⟨texts, htexts, h⟩ := Option.bind_eq_some_iff.mp h
    cases h
    have hall := dumpsMembers_visible items hv htexts
    refine visible_cons.mpr ⟨by decide, (commas_visible ?_).append (by decide)⟩
    intro u hu
    obtain ⟨m, hm, rfl⟩ := List.mem_map.mp hu
    obtain ⟨hkey, htext⟩ := hall m ((List.mem_insertionSort keyLe).mp hm)
    exact (quoted_visible hkey).append (visible_cons.mpr ⟨by decide, htext⟩)

theorem dumpsItems_visible : ∀ (items : List PyValue) {texts : List Text}, OrdinaryItems items →
    dumpsItems floats items = some texts → ∀ t ∈ texts, Visible t
  | [], _, _, h => by
    rw [dumpsItems] at h
    cases h
    simp
  | v :: items, _, hv, h => by
    rw [dumpsItems] at h
    obtain ⟨t, ht, h⟩ := Option.bind_eq_some_iff.mp h
    obtain ⟨rest, hrest, h⟩ := Option.bind_eq_some_iff.mp h
    cases h
    exact List.forall_mem_cons.mpr ⟨dumps_visible v hv.1 ht, dumpsItems_visible items hv.2 hrest⟩

theorem dumpsMembers_visible : ∀ (items : List (Text × PyValue)) {texts : List (Text × Text)}, OrdinaryMembers items →
    dumpsMembers floats items = some texts → ∀ t ∈ texts, Visible t.1 ∧ Visible t.2
  | [], _, _, h => by
    rw [dumpsMembers] at h
    cases h
    simp
  | (key, v) :: items, _, hv, h => by
    rw [dumpsMembers] at h
    obtain ⟨t, ht, h⟩ := Option.bind_eq_some_iff.mp h
    obtain ⟨rest, hrest, h⟩ := Option.bind_eq_some_iff.mp h
    cases h
    exact List.forall_mem_cons.mpr ⟨⟨hv.1.1, dumps_visible v hv.1.2 ht⟩, dumpsMembers_visible items hv.2 hrest⟩

end

end Tells

/-! Writing in ASCII -/

/-- What `ensure_ascii` makes of a text: units past the visible ones stand in strings alone,
and are written with their code. -/
def asciiOnly (t : Text) : Text :=
  t.flatMap (fun n => if n < 127 then [n] else units "\\u" ++
    [n / 4096, n / 256 % 16, n / 16 % 16, n % 16].map (fun d => unit (Json.hexDigit d)))

/-- `json.dumps(value, sort_keys=True, separators=(",", ":")).encode("utf-8")` -/
def canonicalAscii (floats : Floats) (v : PyValue) : Option Bytes := ((dumps floats v).map asciiOnly).bind encode

theorem asciiOnly_visible (h : Visible t) : asciiOnly t = t := by
  induction t with
  | nil => rfl
  | cons n t ih =>
    obtain ⟨hn, ht⟩ := visible_cons.mp h
    have hrest := ih ht
    rw [asciiOnly] at hrest ⊢
    rw [List.flatMap_cons, if_pos hn, hrest]
    rfl

theorem encode_visible (h : Visible t) : encode t = some (t.map Nat.toUInt8) := by
  have hascii : Ascii t := fun n hn => Nat.lt_succ_of_lt (h n hn)
  have hpoint : ∀ n ∈ t, encodePoint n = some [n.toUInt8] := fun n hn => if_pos (hascii n hn)
  rw [encode, points_ascii hascii, mapM_congr hpoint, mapM_some, Option.map_some, ← List.flatMap_def, ← List.map_eq_flatMap]

theorem utf8EncodeChar_visible (h : n < 127) : String.utf8EncodeChar (Char.ofNat n) = [n.toUInt8] := by
  revert n
  decide

/-- Visible bytes are decoded to themselves. -/
theorem decode_visible (h : Visible t) : decode (t.map Nat.toUInt8) = some t := by
  have hbytes : (t.map Char.ofNat).flatMap String.utf8EncodeChar = t.map Nat.toUInt8 := by
    induction t with
    | nil => rfl
    | cons n t ih =>
      obtain ⟨hn, ht⟩ := visible_cons.mp h
      rw [List.map_cons, List.flatMap_cons, utf8EncodeChar_visible hn, ih ht]
      rfl
  have hraw : (⟨(t.map Nat.toUInt8).toArray⟩ : ByteArray) = (String.ofList (t.map Char.ofNat)).toByteArray := by
    rw [String.toByteArray_ofList, List.utf8Encode, hbytes]
    ext1
    simp
  have hunits : (t.map Char.ofNat).flatMap utf16 = t := by
    clear hbytes hraw
    induction t with
    | nil => rfl
    | cons n t ih =>
      obtain ⟨hn, ht⟩ := visible_cons.mp h
      have hunit : ∀ m < 127, utf16 (Char.ofNat m) = [m] := by decide
      rw [List.map_cons, List.flatMap_cons, hunit n hn, ih ht]
      rfl
  have hvalid : (String.ofList (t.map Char.ofNat)).toByteArray.IsValidUTF8 := String.isValidUTF8 _
  rw [decode, hraw, String.fromUTF8?, dif_pos hvalid, Option.map_some]
  have hback : String.fromUTF8 (String.ofList (t.map Char.ofNat)).toByteArray hvalid = String.ofList (t.map Char.ofNat) := rfl
  rw [hback, String.toList_ofList, hunits]

theorem toUInt8_injective (hs : Visible s) (ht : Visible t) (h : s.map Nat.toUInt8 = t.map Nat.toUInt8) : s = t := by
  have hback : ∀ {u : Text}, Visible u → (u.map Nat.toUInt8).map UInt8.toNat = u := by
    intro u hu
    rw [List.map_map]
    conv_rhs => rw [← List.map_id u]
    refine List.map_congr_left fun n hn => ?_
    have := hu n hn
    show n % 256 = n
    omega
  rw [← hback hs, h, hback ht]

/-- The bytes of an ordinary value: nothing in them needs `ensure_ascii`. -/
theorem canonical_fits (floats : Floats) (hv : Ordinary v) : ∃ t, dumps floats v = some t ∧ Visible t ∧
    t.length ≤ room v ∧ canonical floats v = some (t.map Nat.toUInt8) ∧ canonicalAscii floats v = some (t.map Nat.toUInt8) := by
  obtain ⟨t, ht, hlength⟩ := dumps_fits v hv
  have hvisible := dumps_visible v hv ht
  have hbytes := encode_visible hvisible
  refine ⟨t, ht, hvisible, hlength, ?_, ?_⟩
  · rw [canonical, ht, Option.bind_some, hbytes]
  · rw [canonicalAscii, ht, Option.map_some, Option.bind_some, asciiOnly_visible hvisible, hbytes]

theorem tree_of_canonicalAscii {floats : Floats} {bytes : Bytes} (hv : Ordinary v) (hv' : Ordinary v')
    (h : canonicalAscii floats v = some bytes) (h' : canonicalAscii floats v' = some bytes) : treeOf v = treeOf v' := by
  have hbytes : ∀ {w : PyValue}, Ordinary w → canonicalAscii floats w = some bytes →
      ∃ t, dumps floats w = some t ∧ Visible t ∧ t.map Nat.toUInt8 = bytes := by
    intro w hw hb
    obtain ⟨t, ht, hvisible, -, -, hbytes⟩ := canonical_fits floats hw
    exact ⟨t, ht, hvisible, Option.some.inj (hbytes.symm.trans hb)⟩
  obtain ⟨t, ht, hvisible, rfl⟩ := hbytes hv h
  obtain ⟨t', ht', hvisible', heq⟩ := hbytes hv' h'
  rw [toUInt8_injective hvisible' hvisible heq] at ht'
  exact tree_of_text hv hv' ht ht'

/-! Dictionaries of one tree -/

section Lookup

variable {α : Type} {l : List (Text × α)}

theorem lookup_eq_some_of_nodup (h : (l.map Prod.fst).Nodup) {a : α} :
    l.lookup k = some a ↔ (k, a) ∈ l := by
  constructor
  · intro hl
    obtain ⟨pre, post, rfl, -⟩ := List.lookup_eq_some_iff.mp hl
    exact List.mem_append_right _ List.mem_cons_self
  · intro hmem
    obtain ⟨pre, post, rfl⟩ := List.append_of_mem hmem
    refine List.lookup_eq_some_iff.mpr ⟨pre, post, rfl, fun p hp => ?_⟩
    rw [List.map_append, List.nodup_append] at h
    have hne := h.2.2 p.1 (List.mem_map_of_mem hp) k (by simp)
    simpa using hne.symm

theorem lookup_map {β : Type} (f : α → β) (l : List (Text × α)) (k : Text) :
    (l.map (fun item => (item.1, f item.2))).lookup k = (l.lookup k).map f := by
  induction l with
  | nil => rfl
  | cons item l ih =>
    rw [List.map_cons, List.lookup_cons, List.lookup_cons, ih]
    cases k == item.1 <;> rfl

theorem lookup_perm {l' : List (Text × α)} (h : (l.map Prod.fst).Nodup) (hperm : l.Perm l') (k : Text) :
    l.lookup k = l'.lookup k := by
  have h' : (l'.map Prod.fst).Nodup := (hperm.map Prod.fst).nodup_iff.mp h
  refine Option.ext fun a => ?_
  rw [lookup_eq_some_of_nodup h, lookup_eq_some_of_nodup h', hperm.mem_iff]

end Lookup

section Dictionaries

variable {items items' : List (Text × PyValue)}

theorem perm_of_tree (h : treeOf (.dict items) = treeOf (.dict items')) : (treeMembers items).Perm (treeMembers items') := by
  rw [treeOf, treeOf, Tree.obj.injEq] at h
  refine (List.perm_insertionSort (fun a b => points a.1 ≤ points b.1) (treeMembers items)).symm.trans ?_
  rw [h]
  exact List.perm_insertionSort _ _

theorem nodup_treeMembers (h : (items.map Prod.fst).Nodup) : ((treeMembers items).map Prod.fst).Nodup := by
  rwa [treeMembers_eq, List.map_map]

theorem lookup_of_tree (hnodup : (items.map Prod.fst).Nodup) (h : treeOf (.dict items) = treeOf (.dict items')) (k : Text) :
    (items.lookup k).map treeOf = (items'.lookup k).map treeOf := by
  rw [← lookup_map, ← lookup_map, ← treeMembers_eq, ← treeMembers_eq, lookup_perm (nodup_treeMembers hnodup) (perm_of_tree h)]

theorem values_of_tree (hnodup : (items.map Prod.fst).Nodup) (h : treeOf (.dict items) = treeOf (.dict items'))
    (hkeys : items.map Prod.fst = items'.map Prod.fst) :
    items.map (fun item => treeOf item.2) = items'.map (fun item => treeOf item.2) := by
  have hvalues : ∀ l : List (Text × PyValue), (l.map Prod.fst).Nodup →
      (l.map Prod.fst).map (fun k => (l.lookup k).map treeOf) = l.map (fun item => some (treeOf item.2)) := by
    intro l hl
    rw [List.map_map]
    refine List.map_congr_left fun item hitem => ?_
    show (l.lookup item.1).map treeOf = some (treeOf item.2)
    rw [(lookup_eq_some_of_nodup hl).mpr hitem, Option.map_some]
  have hsome : items.map (fun item => some (treeOf item.2)) = items'.map (fun item => some (treeOf item.2)) := by
    rw [← hvalues items hnodup, ← hvalues items' (hkeys ▸ hnodup), ← hkeys]
    exact List.map_congr_left fun k _ => lookup_of_tree hnodup h k
  refine (List.map_injective_iff.mpr (Option.some_injective Tree)) ?_
  rw [List.map_map, List.map_map]
  exact hsome

end Dictionaries

end GrowthMap.PyJson
