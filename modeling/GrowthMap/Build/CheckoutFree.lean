import GrowthMap.Build.ProjectRoot
import GrowthMap.Lib.Fallible
import Mathlib.Data.List.Dedup

/- Whether the identifier of a module depends on where the project is checked out.

   The identifier of a path below a root is `<PROJECT_ROOT>/` and the path exactly when
   the passes replace the root where it stands and nothing else (`normalize_under_iff`).
   A pass takes any place where its spelling stands before a boundary, so a path that
   contains the name of the root directory again, such as `src/app/page.tsx` below
   `/app`, loses that part too (`nested_root_replaced`).

   A replacement takes out a `/`, `%` or `:` more than it puts in, so a run that comes out
   right has replaced one place. -/
namespace GrowthMap.ProjectRoot
open Substitution Fallible

/-! Separators -/

variable {put : Text}

section Separators

variable {c : Char} {a b s : Text}

def isSeparator (c : Char) : Bool := decide (c = '/' ∨ c = '\\')

def folder (root : Text) : Text := root.rdropWhile isSeparator

def under (root path : Text) : Text := folder root ++ '/' :: path

theorem encodedBackslash_none (hc : c ≠ '%') : encodedBackslash (c :: s) = none := by
  unfold encodedBackslash
  split
  · rename_i heq
    cases heq
    exact absurd rfl hc
  · rfl

theorem encodedBackslash_some {n : Nat} (h : encodedBackslash (c :: s) = some (put, n)) :
    put = "%2F".toList ∧ n = 2 ∧ 2 ≤ s.length := by
  unfold encodedBackslash at h
  split at h
  · rename_i heq
    cases heq
    split_ifs at h
    cases h
    simp
  · cases h

/-- A `/` is in no encoded backslash. -/
theorem encodedBackslash_append (hs : s ≠ []) : encodedBackslash (s ++ '/' :: b) = encodedBackslash s := by
  match s, hs with
  | [c], _ =>
    by_cases hc : c = '%'
    · subst hc
      rfl
    · rw [List.singleton_append, encodedBackslash_none hc, encodedBackslash_none hc]
  | [c, d], _ =>
    by_cases hc : c = '%'
    · subst hc
      by_cases hd : d = '5'
      · subst hd
        rfl
      · simp [encodedBackslash, hd]
    · rw [List.cons_append, encodedBackslash_none hc, encodedBackslash_none hc]
  | c :: d :: x :: s, _ =>
    by_cases hc : c = '%'
    · subst hc
      by_cases hd : d = '5'
      · subst hd
        rfl
      · simp [encodedBackslash, hd]
    · rw [List.cons_append, encodedBackslash_none hc, encodedBackslash_none hc]

theorem slash_append (hc : isSeparator c = true) : slash (a ++ c :: b) = slash a ++ '/' :: slash b := by
  have hsame : (if c = '\\' then '/' else c) = '/' := by
    rcases of_decide_eq_true hc with rfl | rfl <;> rfl
  have hn : ∀ c s put n, encodedBackslash (c :: s) = some (put, n) → n ≤ s.length := by
    intro c s put n h
    obtain ⟨-, rfl, hle⟩ := encodedBackslash_some h
    exact hle
  unfold slash
  rw [List.map_append, List.map_cons, hsame, replaceAll_append _ _ (fun t ht => encodedBackslash_append ht) hn,
    replaceAll_none (encodedBackslash_none (by decide))]

theorem slash_cons (hc : c ≠ '%') (hbackslash : c ≠ '\\') : slash (c :: s) = c :: slash s := by
  unfold slash
  rw [List.map_cons, if_neg hbackslash, replaceAll_none (encodedBackslash_none hc)]

/-- The last character stays a character of its own. -/
theorem slash_concat (hc : isSeparator c = false) (s : Text) : ∃ t d, slash (s ++ [c]) = t ++ [d] ∧ d ≠ '/' := by
  have hc' : c ≠ '/' ∧ c ≠ '\\' := not_or.mp (of_decide_eq_false hc)
  have hlast : ∀ s : Text, ∃ t d, replaceAll encodedBackslash (s ++ [c]) = t ++ [d] ∧ d ≠ '/' := by
    intro s
    induction hlength : s.length using Nat.strong_induction_on generalizing s with
    | _ len ih =>
      subst hlength
      cases s with
      | nil =>
        refine ⟨[], c, ?_, hc'.1⟩
        have hnone : encodedBackslash [c] = none := by
          by_cases h : c = '%'
          · subst h
            rfl
          · exact encodedBackslash_none h
        simp [replaceAll_none hnone]
      | cons x s =>
        rw [List.cons_append]
        cases hmatch : encodedBackslash (x :: (s ++ [c])) with
        | none =>
          obtain ⟨t, d, h, hd⟩ := ih s.length (by simp) s rfl
          exact ⟨x :: t, d, by rw [replaceAll_none hmatch, h, List.cons_append], hd⟩
        | some found =>
          obtain ⟨put, n⟩ := found
          obtain ⟨rfl, rfl, hle⟩ := encodedBackslash_some hmatch
          rw [List.length_append, List.length_singleton] at hle
          rw [replaceAll_some hmatch]
          by_cases htwo : 2 ≤ s.length
          · have hshort : (s.drop 2).length < (x :: s).length := by
              rw [List.length_drop, List.length_cons]
              omega
            obtain ⟨t, d, h, hd⟩ := ih _ hshort (s.drop 2) rfl
            rw [List.drop_append_of_le_length htwo, h]
            exact ⟨"%2F".toList ++ t, d, by simp, hd⟩
          · have hnil : (s ++ [c]).drop 2 = [] := List.drop_eq_nil_of_le (by simp; omega)
            exact ⟨['%', '2'], 'F', by rw [hnil]; rfl, by decide⟩
  unfold slash
  rw [List.map_append, List.map_singleton, if_neg hc'.2]
  exact hlast _

theorem rdropWhile_append_all {α : Type} {p : α → Bool} (a b : List α) (hb : ∀ x ∈ b, p x = true) :
    (a ++ b).rdropWhile p = a.rdropWhile p := by
  induction b using List.reverseRecOn with
  | nil => rw [List.append_nil]
  | append_singleton b x ih =>
    rw [← List.append_assoc, List.rdropWhile_concat_pos _ _ _ (hb x (by simp))]
    exact ih fun y hy => hb y (by simp [hy])

theorem slash_separators (hb : ∀ c ∈ b, isSeparator c = true) (a : Text) :
    slash (a ++ b) = slash a ++ List.replicate b.length '/' := by
  induction b generalizing a with
  | nil => simp
  | cons c b ih =>
    have hrest := ih (fun c hc => hb c (List.mem_cons_of_mem _ hc)) []
    rw [slash_append (hb c List.mem_cons_self), List.length_cons, List.replicate_succ]
    rw [List.nil_append] at hrest
    rw [hrest]
    rfl

/-- The normalized root is the folder with its separators written as `/`. -/
theorem normalizedRoot_eq (root : Text) :
    normalizedRoot root = if folder root = [] then ['/'] else slash (folder root) := by
  have hsplit : folder root ++ root.rtakeWhile isSeparator = root := List.rdropWhile_append_rtakeWhile
  have htrim : (slash root).rdropWhile (· = '/') = (slash (folder root)).rdropWhile (· = '/') := by
    have hall : ∀ c ∈ root.rtakeWhile isSeparator, isSeparator c = true := fun c hc => List.mem_rtakeWhile_imp hc
    conv_lhs => rw [← hsplit, slash_separators hall]
    exact rdropWhile_append_all _ _ fun c hc => decide_eq_true (List.eq_of_mem_replicate hc)
  unfold normalizedRoot
  dsimp only
  rw [htrim]
  obtain hnil | ⟨t, c, hfolder⟩ := List.eq_nil_or_concat (folder root)
  · rw [hnil]
    rfl
  · have hc : isSeparator c = false := by
      have hlast := List.rdropWhile_last_not isSeparator root (by
        show folder root ≠ []
        rw [hfolder]
        simp)
      have heq : (root.rdropWhile isSeparator).getLast? = some c := by
        show (folder root).getLast? = some c
        rw [hfolder]
        simp
      rw [List.getLast?_eq_some_getLast (by
        show folder root ≠ []
        rw [hfolder]
        simp)] at heq
      rw [Option.some.inj heq] at hlast
      simpa using hlast
    obtain ⟨u, d, hslash, hd⟩ := slash_concat hc t
    rw [hfolder, List.concat_eq_append, hslash, List.rdropWhile_concat_neg _ _ _ (by simpa using hd)]
    simp

theorem slash_under (root path : Text) : slash (under root path) = slash (folder root) ++ '/' :: slash path :=
  slash_append rfl

end Separators

/-! What a replacement costs -/

/-- The root begins with a `/`, or a letter and a `:`; the placeholder has neither, and no `%`. -/
def cost (c : Char) : Int := if c = '%' then 3 else if c = '/' ∨ c = ':' then 1 else 0

def Atom.cost : Atom → Int
  | .char c => ProjectRoot.cost c
  | .hex _ => 0
  | .separator => 1

def atomsCost (as : List Atom) : Int := (as.map Atom.cost).sum

def Atom.Plain : Atom → Prop
  | .char c => c ≠ '/'
  | .hex c => isUpperHex c = true
  | .separator => False

def LastPlain (as : List Atom) : Prop := ∃ bs a, as = bs ++ [a] ∧ a.Plain

section Costs

variable {e : Engine} {insensitive : Bool} {keep : Char → Bool} {a c : Char} {s rest : Text} {as bs : List Atom}

theorem cost_nonneg (c : Char) : 0 ≤ cost c := by
  unfold cost
  split_ifs <;> omega

theorem weight_nonneg (s : Text) : 0 ≤ weight cost s := by
  induction s with
  | nil => exact le_refl 0
  | cons c =>
    rw [weight_cons]
    have hc := cost_nonneg c
    omega

theorem weight_projectRoot : weight cost projectRoot = 0 := rfl

@[simp] theorem atomsCost_append : atomsCost (as ++ bs) = atomsCost as + atomsCost bs := by
  simp [atomsCost]

@[simp] theorem atomsCost_cons (a : Atom) : atomsCost (a :: as) = a.cost + atomsCost as := by
  simp [atomsCost]

theorem LastPlain.append (h : LastPlain bs) (as : List Atom) : LastPlain (as ++ bs) := by
  obtain ⟨cs, a, rfl, ha⟩ := h
  exact ⟨as ++ cs, a, (List.append_assoc _ _ _).symm, ha⟩

/-! Characters that count as one another -/

theorem fold_eq (ha : a ∈ ['%', '/', ':']) (h : e.fold a = e.fold c) : c = a := by
  have hupper : ∀ n < 128, (Char.ofNat n).toUpper = a → Char.ofNat n = a := by
    simp only [List.mem_cons, List.not_mem_nil, or_false] at ha
    obtain rfl | rfl | rfl := ha <;> decide
  have hself : ∀ a ∈ ['%', '/', ':'], a.toNat < 128 ∧ a.toUpper = a := by simp
  obtain ⟨hlt, hsame⟩ := hself a ha
  have hfold : e.fold c = a := by rw [← h, Engine.fold, if_pos hlt, hsame]
  unfold Engine.fold at hfold
  split_ifs at hfold with hc hbeyond
  · rw [← Char.ofNat_toNat c] at hfold ⊢
    exact hupper _ hc hfold
  · exact hfold
  · rw [hfold] at hbeyond
    exact absurd hlt hbeyond

theorem sameChar_eq (ha : a ∈ ['%', '/', ':']) (h : sameChar e insensitive a c = true) : c = a := by
  unfold sameChar at h
  split_ifs at h
  · exact fold_eq ha (of_decide_eq_true h)
  · exact (of_decide_eq_true h).symm

theorem sameChar_slash (h : sameChar e insensitive a '/' = true) : a = '/' := by
  unfold sameChar at h
  split_ifs at h
  · exact fold_eq (by simp) (of_decide_eq_true h).symm
  · exact of_decide_eq_true h

theorem sameChar_cost (h : sameChar e insensitive a c = true) : cost a ≤ cost c := by
  by_cases ha : a ∈ ['%', '/', ':']
  · rw [sameChar_eq ha h]
  · have hzero : cost a = 0 := by
      simp only [List.mem_cons, List.not_mem_nil, or_false, not_or] at ha
      simp [cost, ha]
    rw [hzero]
    exact cost_nonneg c

/-! Matches -/

theorem separator_split (h : separator s = some rest) :
    ∃ x, s = x ++ rest ∧ 1 ≤ weight cost x ∧ ∀ y, endsInSeparator (y ++ x) = true := by
  unfold separator at h
  split at h
  · cases h
    exact ⟨['/'], rfl, by decide, fun y => by simp [endsInSeparator]⟩
  · rename_i c _
    split_ifs at h with hc
    cases h
    rcases hc with rfl | rfl
    · exact ⟨"%2f".toList, rfl, by decide, fun y => by simp [endsInSeparator]⟩
    · exact ⟨"%2F".toList, rfl, by decide, fun y => by simp [endsInSeparator]⟩
  · cases h

theorem take_split {a : Atom} (h : a.take (sameChar e insensitive) s = some rest) :
    ∃ x, s = x ++ rest ∧ a.cost ≤ weight cost x := by
  cases a with
  | char =>
    cases s with
    | nil => cases h
    | cons c =>
      simp only [Atom.take] at h
      split_ifs at h with hsame
      cases h
      exact ⟨[c], rfl, by simpa [Atom.cost] using sameChar_cost hsame⟩
  | hex =>
    cases s with
    | nil => cases h
    | cons c =>
      simp only [Atom.take] at h
      split_ifs at h
      cases h
      exact ⟨[c], rfl, weight_nonneg _⟩
  | separator =>
    obtain ⟨x, hs, hcost, -⟩ := separator_split h
    exact ⟨x, hs, hcost⟩

theorem take_plain {a : Atom} (ha : a.Plain) (h : a.take (sameChar e insensitive) s = some rest) :
    ∃ c, s = c :: rest ∧ c ≠ '/' := by
  cases a with
  | char =>
    cases s with
    | nil => cases h
    | cons c =>
      simp only [Atom.take] at h
      split_ifs at h with hsame
      cases h
      refine ⟨c, rfl, ?_⟩
      intro hc
      subst hc
      exact ha (sameChar_slash hsame)
  | hex a =>
    cases s with
    | nil => cases h
    | cons c =>
      simp only [Atom.take] at h
      split_ifs at h with hsame
      cases h
      refine ⟨c, rfl, ?_⟩
      intro hc
      subst hc
      have hhex : ∀ n < 128, isUpperHex (Char.ofNat n) = true → (Char.ofNat n).toLower ≠ '/' ∧ Char.ofNat n ≠ '/' := by decide
      have hlt : a.toNat < 128 := by
        have hrange : isUpperHex a = true := ha
        simp only [isUpperHex, Char.isDigit, Bool.or_eq_true, Bool.and_eq_true, decide_eq_true_eq] at hrange
        obtain ⟨-, hle⟩ | ⟨-, hle⟩ := hrange
        · exact Nat.lt_of_le_of_lt hle (by decide)
        · exact Nat.lt_of_le_of_lt hle (by decide)
      have hboth := hhex a.toNat hlt (by rw [Char.ofNat_toNat]; exact ha)
      rw [Char.ofNat_toNat] at hboth
      rw [Bool.or_eq_true] at hsame
      obtain hlower | hself := hsame
      · exact hboth.1 (sameChar_slash hlower)
      · exact hboth.2 (sameChar_slash hself)
  | separator => exact absurd ha id

theorem takeAll_split (h : takeAll (sameChar e insensitive) as s = some rest) :
    ∃ x, s = x ++ rest ∧ atomsCost as ≤ weight cost x := by
  induction as generalizing s with
  | nil =>
    cases h
    exact ⟨[], rfl, le_refl 0⟩
  | cons a as ih =>
    obtain ⟨t, ht, h⟩ := Option.bind_eq_some_iff.mp h
    obtain ⟨x, hx, hxcost⟩ := take_split ht
    obtain ⟨y, hy, hycost⟩ := ih h
    refine ⟨x ++ y, by rw [hx, hy, List.append_assoc], ?_⟩
    rw [atomsCost_cons, weight_append]
    omega

theorem takeAll_append (as bs : List Atom) (s : Text) :
    takeAll (sameChar e insensitive) (as ++ bs) s =
      (takeAll (sameChar e insensitive) as s).bind (takeAll (sameChar e insensitive) bs) := by
  induction as generalizing s with
  | nil => rfl
  | cons a as ih =>
    rw [List.cons_append, takeAll, takeAll, Option.bind_assoc]
    exact Option.bind_congr fun t _ => ih t

/-- A match of a spelling takes something, and no `/` at the end. -/
theorem takeAll_last (hlast : LastPlain as) (h : takeAll (sameChar e insensitive) as s = some rest) :
    ∃ x c, s = x ++ c :: rest ∧ c ≠ '/' ∧ atomsCost as ≤ weight cost (x ++ [c]) := by
  obtain ⟨bs, a, rfl, ha⟩ := hlast
  obtain ⟨x, hx, hcost⟩ := takeAll_split h
  rw [takeAll_append] at h
  obtain ⟨t, ht, h⟩ := Option.bind_eq_some_iff.mp h
  rw [takeAll, Option.bind_eq_some_iff] at h
  obtain ⟨u, hu, h⟩ := h
  cases h
  obtain ⟨y, hy, -⟩ := takeAll_split ht
  obtain ⟨c, hc, hne⟩ := take_plain ha hu
  have heq : x = y ++ [c] := by
    rw [hc] at hy
    have hsame : x ++ rest = (y ++ [c]) ++ rest := by
      rw [← hx, hy]
      simp
    exact List.append_cancel_right hsame
  exact ⟨y, c, by rw [hy, hc], hne, heq ▸ hcost⟩

end Costs

/-! The spellings -/

section Spellings

variable {keep : Char → Bool} {c : Char} {s : Text}

theorem isUpperHex_cost (h : isUpperHex c = true) : cost c = 0 := by
  have hnot : c ≠ '%' ∧ c ≠ '/' ∧ c ≠ ':' := by
    refine ⟨?_, ?_, ?_⟩ <;> (intro hc; subst hc; cases h)
  simp [cost, hnot]

theorem encodedEscape_cons (c : Char) (s : Text) :
    encodedEscape (c :: s) = .char c :: encodedEscape s ∨
      ∃ a b t, c = '%' ∧ s = a :: b :: t ∧ isUpperHex a = true ∧ isUpperHex b = true ∧
        encodedEscape (c :: s) = .char '%' :: .hex a :: .hex b :: encodedEscape t := by
  rw [encodedEscape.eq_def]
  split
  · rename_i heq
    cases heq
  · rename_i a b t heq
    cases heq
    split
    · rename_i hhex
      rw [Bool.and_eq_true] at hhex
      exact .inr ⟨a, b, t, rfl, rfl, hhex.1, hhex.2, rfl⟩
    · exact .inl rfl
  · rename_i heq
    cases heq
    exact .inl rfl

theorem encodedEscape_cost (s : Text) : atomsCost (encodedEscape s) = weight cost s := by
  induction hlength : s.length using Nat.strong_induction_on generalizing s with
  | _ len ih =>
    subst hlength
    cases s with
    | nil => rfl
    | cons c s =>
      obtain h | ⟨a, b, t, rfl, rfl, ha, hb, h⟩ := encodedEscape_cons c s
      · rw [h, atomsCost_cons, weight_cons, ih s.length (by simp) s rfl]
        rfl
      · have ht := ih t.length (by simp; omega) t rfl
        simp only [h, atomsCost_cons, weight_cons, ht, Atom.cost, isUpperHex_cost ha, isUpperHex_cost hb]

theorem encodedEscape_last (hc : c ≠ '/') (s : Text) : LastPlain (encodedEscape (s ++ [c])) := by
  induction hlength : s.length using Nat.strong_induction_on generalizing s with
  | _ len ih =>
    subst hlength
    cases s with
    | nil =>
      obtain h | ⟨a, b, t, -, h, -⟩ := encodedEscape_cons c []
      · exact ⟨[], .char c, h, hc⟩
      · cases h
    | cons x s =>
      obtain h | ⟨a, b, t, rfl, hs, ha, hb, h⟩ := encodedEscape_cons x (s ++ [c])
      · rw [List.cons_append, h]
        exact (ih s.length (by simp) s rfl).append [.char x]
      · rw [List.cons_append, h]
        obtain rfl | ⟨u, d, rfl⟩ := List.eq_nil_or_concat t
        · exact ⟨[.char '%', .hex a], .hex b, rfl, hb⟩
        · have hlast : a :: b :: u = s ∧ d = c := by
            have hsame : (a :: b :: u) ++ [d] = s ++ [c] := by
              rw [hs]
              simp
            obtain ⟨h₁, h₂⟩ := List.append_inj' hsame rfl
            exact ⟨h₁, (List.cons.inj h₂).1⟩
          obtain ⟨rfl, rfl⟩ := hlast
          rw [List.concat_eq_append]
          exact (ih u.length (by simp; omega) u rfl).append [.char '%', .hex a, .hex b]

theorem encodeWith_append (a b : Text) : encodeWith keep (a ++ b) = encodeWith keep a ++ encodeWith keep b := by
  simp [encodeWith]

theorem upperHex_ne : ∀ n < 16, upperHex n ≠ '/' := by decide

/-- An encoded character begins with a `%`, and ends in a digit. -/
theorem percents (bytes : List UInt8) (hne : bytes ≠ []) :
    (∃ s, bytes.flatMap percent = '%' :: s) ∧ ∃ s d, bytes.flatMap percent = s ++ [d] ∧ d ≠ '/' := by
  constructor
  · cases bytes with
    | nil => exact absurd rfl hne
    | cons => exact ⟨_, rfl⟩
  · obtain hnil | ⟨bs, b, rfl⟩ := List.eq_nil_or_concat bytes
    · exact absurd hnil hne
    · refine ⟨bs.flatMap percent ++ ['%', upperHex (b.toNat / 16)], upperHex (b.toNat % 16), ?_,
        upperHex_ne _ (Nat.mod_lt _ (by decide))⟩
      simp [percent]

theorem encodeWith_singleton (c : Char) : encodeWith keep [c] = [c] ∨
    ((∃ s, encodeWith keep [c] = '%' :: s) ∧ ∃ s d, encodeWith keep [c] = s ++ [d] ∧ d ≠ '/') := by
  unfold encodeWith
  rw [List.flatMap_singleton]
  split
  · exact .inl rfl
  · exact .inr (percents _ String.utf8EncodeChar_ne_nil)

theorem encodeWith_cost (s : Text) : weight cost s ≤ weight cost (encodeWith keep s) := by
  induction s with
  | nil => exact le_refl 0
  | cons c =>
    have hone : cost c ≤ weight cost (encodeWith keep [c]) := by
      obtain h | ⟨⟨t, h⟩, -⟩ := @encodeWith_singleton keep c
      · simp [h]
      · have ht := weight_nonneg t
        have hthree : cost '%' = 3 := rfl
        have hle : cost c ≤ 3 := by
          unfold cost
          split_ifs <;> omega
        rw [h, weight_cons, hthree]
        omega
    rw [← List.singleton_append, encodeWith_append, weight_append, weight_append]
    have hsingle : weight cost [c] = cost c := by simp
    omega

theorem encodeWith_last (hc : c ≠ '/') (s : Text) : ∃ t d, encodeWith keep (s ++ [c]) = t ++ [d] ∧ d ≠ '/' := by
  rw [encodeWith_append]
  obtain h | ⟨-, t, d, h, hd⟩ := @encodeWith_singleton keep c
  · exact ⟨encodeWith keep s, c, by rw [h], hc⟩
  · exact ⟨encodeWith keep s ++ t, d, by rw [h, List.append_assoc], hd⟩

/-- A spelling of the root: it costs what the root does at least, and ends in no separator. -/
structure Spelling (root : Text) (as : List Atom) : Prop where
  cost : weight cost root ≤ atomsCost as
  last : LastPlain as

theorem component_spelling (hc : c ≠ '/') (s : Text) : Spelling (s ++ [c]) (component (s ++ [c])) where
  cost := by
    have hall : ∀ s : Text, weight ProjectRoot.cost s ≤ atomsCost (component s) := by
      intro s
      induction s with
      | nil => exact le_refl 0
      | cons d s =>
        have hcons : component (d :: s) = component [d] ++ component s := by simp [component]
        rw [hcons, atomsCost_append, weight_cons]
        have hone : ProjectRoot.cost d ≤ atomsCost (component [d]) := by
          rw [component, List.flatMap_singleton]
          split_ifs with hd
          · rw [hd]
            rfl
          · rw [encodedEscape_cost]
            have h := @encodeWith_cost isUnescaped [d]
            rw [weight_cons, weight_nil] at h
            unfold encodeURIComponent
            omega
        omega
    exact hall _
  last := by
    have hsplit : component (s ++ [c]) = component s ++ encodedEscape (encodeURIComponent [c]) := by
      simp [component, hc]
    rw [hsplit]
    obtain ⟨t, d, h, hd⟩ := @encodeWith_last isUnescaped c hc []
    rw [List.nil_append] at h
    rw [encodeURIComponent, h]
    exact (encodedEscape_last hd t).append _

theorem mem_rootPatterns {root : Text} (hroot : ∃ s c, root = s ++ [c] ∧ c ≠ '/') {as : List Atom}
    (has : as ∈ rootPatterns root) : Spelling root as := by
  obtain ⟨s, c, rfl, hc⟩ := hroot
  have hencoded : ∀ keep, Spelling (s ++ [c]) (encodedEscape (encodeWith keep (s ++ [c]))) := by
    intro keep
    refine ⟨?_, ?_⟩
    · rw [encodedEscape_cost]
      exact encodeWith_cost _
    · obtain ⟨t, d, h, hd⟩ := @encodeWith_last keep c hc s
      rw [h]
      exact encodedEscape_last hd t
  unfold rootPatterns at has
  rw [List.mem_insertionSort, List.mem_dedup, List.mem_append, List.mem_singleton] at has
  obtain has | rfl := has
  · simp only [List.map_cons, List.map_nil, List.mem_cons, List.not_mem_nil, or_false] at has
    obtain rfl | rfl | rfl := has
    · exact ⟨(encodedEscape_cost _).ge, encodedEscape_last hc s⟩
    · exact hencoded _
    · exact hencoded _
  · exact component_spelling hc s

end Spellings

/-! One replacement -/

variable {rest : Text}

section Passes

variable {e : Engine} {insensitive : Bool} {root : Text} {as : List Atom} {c : Char} {s put : Text} {n : Nat}

def margin (root : Text) : Int := if 3 ≤ weight cost root then weight cost root - 1 else weight cost root

theorem boundary_cases (h : boundary s = some rest) :
    separator s = some rest ∨ (separator s = none ∧ rest = s ∧ (s = [] ∨ s.head? = some '!')) := by
  unfold boundary at h
  split at h
  · rename_i heq
    cases h
    exact .inl heq
  · rename_i hnone
    split_ifs at h with hend
    cases h
    exact .inr ⟨hnone, rfl, hend⟩

/-- A match: what it takes, and that it ends at a boundary. -/
theorem rootPattern_some (has : LastPlain as) (h : rootPattern (sameChar e insensitive) as (c :: s) = some (put, n)) :
    n ≤ s.length ∧ ∃ x d, d ≠ '/' ∧ atomsCost as ≤ weight cost (x ++ [d]) ∧
      ((∃ y, c :: s = x ++ [d] ++ y ++ s.drop n ∧ 1 ≤ weight cost y ∧ put = projectRoot ++ ['/']) ∨
        (c :: s = x ++ [d] ++ s.drop n ∧ (s.drop n = [] ∨ (s.drop n).head? = some '!') ∧
          put = projectRoot ++ (if endsInSeparator (x ++ [d]) then ['/'] else []))) := by
  unfold rootPattern at h
  obtain ⟨rest, hrest, h⟩ := Option.bind_eq_some_iff.mp h
  obtain ⟨rest', hboundary, h⟩ := Option.bind_eq_some_iff.mp h
  cases h
  obtain ⟨x, d, hx, hd, hcost⟩ := takeAll_last has hrest
  -- what is left is what is dropped
  have hdrop : ∀ y, y ≠ [] → c :: s = y ++ rest' →
      (c :: s).take ((c :: s).length - rest'.length) = y ∧ s.drop (y.length - 1) = rest' ∧ y.length - 1 ≤ s.length := by
    intro y hy heq
    have hlength : (c :: s).length - rest'.length = y.length := by
      rw [heq, List.length_append]
      omega
    refine ⟨by rw [hlength, heq, List.take_left], ?_⟩
    cases y with
    | nil => exact absurd rfl hy
    | cons =>
      rw [List.cons_append] at heq
      rw [(List.cons.inj heq).2]
      simp
  obtain hseparator | ⟨-, rfl, hend⟩ := boundary_cases hboundary
  · obtain ⟨y, hy, hycost, hends⟩ := separator_split hseparator
    have hsplit : c :: s = (x ++ [d] ++ y) ++ rest' := by
      rw [hx, hy]
      simp
    obtain ⟨htake, hleft, hle⟩ := hdrop _ (by simp) hsplit
    rw [htake, hleft, hends]
    exact ⟨hle, x, d, hd, hcost, .inl ⟨y, hsplit, hycost, rfl⟩⟩
  · have hsplit : c :: s = (x ++ [d]) ++ rest' := by
      rw [hx]
      simp
    obtain ⟨htake, hleft, hle⟩ := hdrop _ (by simp) hsplit
    rw [htake, hleft]
    exact ⟨hle, x, d, hd, hcost, .inr ⟨hsplit, hend, rfl⟩⟩

theorem endsInSeparator_cost (hc : c ≠ '/') (h : endsInSeparator (s ++ [c]) = true) : 3 ≤ weight cost (s ++ [c]) := by
  have hsuffix : ∀ t : Text, 3 ≤ weight cost t → t.isSuffixOf (s ++ [c]) = true → 3 ≤ weight cost (s ++ [c]) := by
    intro t ht hsuffix
    obtain ⟨u, hu⟩ := List.isSuffixOf_iff_suffix.mp hsuffix
    have hnonneg := weight_nonneg u
    rw [← hu, weight_append]
    omega
  unfold endsInSeparator at h
  rw [Bool.or_eq_true, Bool.or_eq_true] at h
  obtain (h | h) | h := h
  · obtain ⟨u, hu⟩ := List.isSuffixOf_iff_suffix.mp h
    have hlast := List.append_inj' hu rfl
    exact absurd (List.cons.inj hlast.2).1.symm hc
  · exact hsuffix _ (by decide) h
  · exact hsuffix _ (by decide) h

/-- Every replacement lowers the cost. -/
theorem rootPattern_lowers (has : Spelling root as) :
    Lowers cost (margin root) (rootPattern (sameChar e insensitive) as) := by
  intro c s put n h
  obtain ⟨-, x, d, hd, hcost, ⟨y, hsplit, hy, rfl⟩ | ⟨hsplit, -, rfl⟩⟩ := rootPattern_some has.last h
  · have hroot := has.cost
    have hone : weight cost ['/'] = 1 := rfl
    have hmargin : margin root ≤ weight cost root := by
      unfold margin
      split_ifs <;> omega
    conv_rhs => rw [hsplit]
    simp only [weight_append, weight_projectRoot, hone] at hcost ⊢
    omega
  · have hroot := has.cost
    conv_rhs => rw [hsplit]
    rw [weight_append, weight_append, weight_projectRoot]
    split_ifs with hends
    · have hthree := endsInSeparator_cost hd hends
      have hone : weight cost ['/'] = 1 := rfl
      unfold margin
      split_ifs <;> omega
    · have hmargin : margin root ≤ weight cost root := by
        unfold margin
        split_ifs <;> omega
      rw [weight_nil]
      omega

end Passes

/-- The root, with its separators as `/`, begins with one or with a drive. -/
def isAbsolute (root : Text) : Bool :=
  match normalizedRoot root with
  | '/' :: _ => true
  | c :: ':' :: _ => c.isAlpha
  | _ => false

/-- The passes replace the root where it stands, and nothing else below it: the spelling that
takes the root itself is not in the path again, none that is tried before it is anywhere, and
none tried after it is in what it leaves. -/
def OnlyRoot (e : Engine) (root path : Text) : Prop :=
  if normalizedRoot root = ['/'] then path ≠ [] ∧ ¬ Occurs segmentStart path
  else ∃ before m after, passes e (normalizedRoot root) = before ++ m :: after ∧
    (∀ b ∈ before, ¬ Occurs b (normalizedRoot root ++ '/' :: path)) ∧
    m (normalizedRoot root ++ '/' :: path) = some (projectRoot ++ ['/'], (normalizedRoot root).length) ∧
    ¬ Occurs m path ∧ ∀ a ∈ after, ¬ Occurs a (projectRoot ++ '/' :: path)

section Roots

variable {e : Engine} {root : Text} {s q : Text}

theorem isAbsolute_head (h : isAbsolute root = true) :
    (∃ s, normalizedRoot root = '/' :: s) ∨ ∃ c s, normalizedRoot root = c :: ':' :: s ∧ c.isAlpha = true := by
  unfold isAbsolute at h
  split at h
  · rename_i s heq
    exact .inl ⟨s, heq⟩
  · rename_i c s _ heq
    exact .inr ⟨c, s, heq, h⟩
  · cases h

theorem isAbsolute_cost (h : isAbsolute root = true) : 1 ≤ weight cost (normalizedRoot root) := by
  obtain ⟨s, hs⟩ | ⟨c, s, hs, -⟩ := isAbsolute_head h
  · have hnonneg := weight_nonneg s
    have hone : cost '/' = 1 := rfl
    rw [hs, weight_cons]
    omega
  · have hnonneg := weight_nonneg s
    have hc := cost_nonneg c
    have hone : cost ':' = 1 := rfl
    rw [hs, weight_cons, weight_cons]
    omega

theorem isAbsolute_ne (h : isAbsolute root = true) : ∃ c s, normalizedRoot root = c :: s ∧ c ≠ '<' := by
  obtain ⟨s, hs⟩ | ⟨c, s, hs, hc⟩ := isAbsolute_head h
  · exact ⟨'/', s, hs, by decide⟩
  · refine ⟨c, ':' :: s, hs, ?_⟩
    intro hlt
    subst hlt
    cases hc

theorem folder_last (h : folder root ≠ []) : ∃ s c, folder root = s ++ [c] ∧ isSeparator c = false := by
  have hlast := List.rdropWhile_last_not isSeparator root h
  exact ⟨(folder root).dropLast, (folder root).getLast h, (List.dropLast_append_getLast h).symm, eq_false_of_ne_true hlast⟩

theorem normalizedRoot_last (h : normalizedRoot root ≠ ['/']) :
    normalizedRoot root = slash (folder root) ∧ ∃ s c, normalizedRoot root = s ++ [c] ∧ c ≠ '/' := by
  rw [normalizedRoot_eq] at h ⊢
  by_cases hfolder : folder root = []
  · rw [if_pos hfolder] at h
    exact absurd rfl h
  · obtain ⟨s, c, hs, hc⟩ := folder_last hfolder
    rw [if_neg hfolder]
    refine ⟨rfl, ?_⟩
    rw [hs]
    exact slash_concat hc s

theorem folder_of_normalizedRoot (h : normalizedRoot root = ['/']) : folder root = [] := by
  by_contra hfolder
  obtain ⟨s, c, hs, hc⟩ := folder_last hfolder
  obtain ⟨t, d, hslash, hd⟩ := slash_concat hc s
  rw [normalizedRoot_eq, if_neg hfolder, hs, hslash] at h
  have hlast := List.append_inj' (show t ++ [d] = [] ++ ['/'] from h) rfl
  exact hd (List.cons.inj hlast.2).1

theorem passes_lower (hroot : normalizedRoot root ≠ ['/']) :
    ∀ m ∈ passes e (normalizedRoot root), Lowers cost (margin (normalizedRoot root)) m := by
  intro m hm
  obtain ⟨as, has, rfl⟩ := List.mem_map.mp hm
  exact rootPattern_lowers (mem_rootPatterns (normalizedRoot_last hroot).2 has)

/-- Below an absolute root the passes leave the placeholder and the path exactly when they
replace nothing but the root. -/
theorem run_passes_iff (habsolute : isAbsolute root = true) (hroot : normalizedRoot root ≠ ['/']) :
    run (passes e (normalizedRoot root)) (normalizedRoot root ++ '/' :: q) = projectRoot ++ '/' :: q ↔
      OnlyRoot e root q := by
  obtain ⟨c, t, hhead, hc⟩ := isAbsolute_ne habsolute
  rw [OnlyRoot, if_neg hroot]
  constructor
  · intro hrun
    have hone := isAbsolute_cost habsolute
    have hmargin : 0 < margin (normalizedRoot root) ∧ weight cost (normalizedRoot root) < 2 * margin (normalizedRoot root) := by
      unfold margin
      split_ifs <;> omega
    have hchanged : run (passes e (normalizedRoot root)) (normalizedRoot root ++ '/' :: q) ≠ normalizedRoot root ++ '/' :: q := by
      rw [hrun, hhead]
      intro heq
      exact hc (List.cons.inj heq).1.symm
    have hweight : weight cost (normalizedRoot root ++ '/' :: q) <
        weight cost (run (passes e (normalizedRoot root)) (normalizedRoot root ++ '/' :: q)) +
          2 * margin (normalizedRoot root) := by
      rw [hrun, weight_append, weight_append, weight_projectRoot]
      omega
    obtain ⟨before, m, after, hpasses, hbefore, ⟨pre, d, suf, put, n, hsplit, hmatch, hnone, hout⟩, hafter⟩ :=
      run_once hmargin.1 (passes_lower hroot) hchanged hweight
    rw [hrun] at hout hafter
    -- the text has changed at its start
    have hpre : pre = [] := by
      cases pre with
      | nil => rfl
      | cons x =>
        rw [hhead] at hsplit
        have hx : c = x := (List.cons.inj hsplit).1
        have hx' : '<' = x := (List.cons.inj hout).1
        exact absurd (hx.trans hx'.symm) hc
    subst hpre
    rw [List.nil_append] at hsplit hout
    obtain ⟨as, has, rfl⟩ := List.mem_map.mp (show m ∈ passes e (normalizedRoot root) by rw [hpasses]; simp)
    obtain ⟨hle, x, y, -, -, hput⟩ := rootPattern_some (mem_rootPatterns (normalizedRoot_last hroot).2 has).last hmatch
    have hboth : put = projectRoot ++ ['/'] ∧ suf.drop n = q := by
      have hslash : put = projectRoot ++ ['/'] → put = projectRoot ++ ['/'] ∧ suf.drop n = q := by
        intro hput
        refine ⟨hput, ?_⟩
        rw [hput, List.append_assoc] at hout
        exact (List.cons.inj (List.append_cancel_left hout)).2.symm
      obtain ⟨-, -, -, hput⟩ | ⟨-, hend, hput⟩ := hput
      · exact hslash hput
      · split_ifs at hput
        · exact hslash hput
        · rw [hput, List.append_nil] at hout
          have hdrop := List.append_cancel_left hout
          rw [← hdrop] at hend
          simp at hend
    have hn : n = (normalizedRoot root).length := by
      have hlength := congrArg List.length hsplit
      have hrest := congrArg List.length hboth.2
      simp only [List.length_append, List.length_cons, List.length_drop] at hlength hrest
      omega
    refine ⟨before, _, after, hpasses, hbefore, ?_, ?_, hafter⟩
    · rw [hsplit, hmatch, hboth.1, hn]
    · rw [← hboth.2]
      exact hnone
  · rintro ⟨before, m, after, hpasses, hbefore, hmatch, hnone, hafter⟩
    rw [hhead, List.cons_append] at hmatch
    have hdrop : (t ++ '/' :: q).drop (c :: t).length = q := by
      rw [List.length_cons, show t ++ '/' :: q = (t ++ ['/']) ++ q by simp, List.drop_left' (by simp)]
    have hreplaced : replaceAll m (c :: (t ++ '/' :: q)) = projectRoot ++ '/' :: q := by
      rw [replaceAll_some hmatch, hdrop, replaceAll_of_not_occurs hnone, List.append_assoc]
      rfl
    rw [hpasses, run_append, run_of_not_occurs hbefore, run_cons, hhead, List.cons_append, hreplaced,
      run_of_not_occurs hafter]

/-! The filesystem root -/

theorem separator_length (h : separator s = some rest) : rest.length ≤ s.length ∧ s.length ≤ rest.length + 3 := by
  unfold separator at h
  split at h
  · cases h
    simp
  · split_ifs at h
    cases h
    simp only [List.length_cons]
    omega
  · cases h

theorem segmentStart_some {c : Char} {n : Nat} (h : segmentStart (c :: s) = some (put, n)) :
    ∃ rest, separator s = some rest ∧ put = '!' :: (projectRoot ++ (if rest = [] then [] else ['/'])) ∧
      n = s.length - rest.length := by
  unfold segmentStart at h
  split at h
  · rename_i heq
    cases heq
    obtain ⟨rest, hrest, h⟩ := Option.map_eq_some_iff.mp h
    cases h
    exact ⟨rest, hrest, rfl, rfl⟩
  · cases h

theorem segmentStart_lowers : Lowers (fun _ => -1) 1 segmentStart := by
  have hlength : ∀ t : Text, weight (fun _ => -1) t = -t.length := by
    intro t
    induction t with
    | nil => rfl
    | cons d t ih =>
      rw [weight_cons, ih, List.length_cons]
      omega
  intro c s put n h
  obtain ⟨rest, hrest, rfl, rfl⟩ := segmentStart_some h
  obtain ⟨hle, hle'⟩ := separator_length hrest
  have hplaceholder : projectRoot.length = 14 := rfl
  simp only [hlength, List.length_cons, List.length_append, List.length_drop, hplaceholder]
  omega

theorem replaceAll_segmentStart_iff : replaceAll segmentStart q = q ↔ ¬ Occurs segmentStart q := by
  refine ⟨?_, replaceAll_of_not_occurs⟩
  intro hsame
  obtain ⟨h, -⟩ | ⟨-, h⟩ | h := replaceAll_cases (by decide) segmentStart_lowers q
  · exact h
  · rw [hsame] at h
    omega
  · rw [hsame] at h
    omega

theorem replaceFilesystemRoot_iff (hroot : normalizedRoot root = ['/']) (path : Text) :
    replaceFilesystemRoot (under root path) = projectRoot ++ '/' :: slash path ↔ OnlyRoot e root (slash path) := by
  have hinput : slash (under root path) = '/' :: slash path := by
    rw [slash_under, folder_of_normalizedRoot hroot]
    rfl
  have hseparator : separator ('/' :: slash path) = some (slash path) := rfl
  rw [OnlyRoot, if_pos hroot, ← replaceAll_segmentStart_iff]
  unfold replaceFilesystemRoot
  rw [hinput]
  dsimp only
  rw [hseparator]
  dsimp only
  split_ifs with hnil
  · rw [hnil]
    exact iff_of_false (by simp) (by simp)
  · rw [List.append_cancel_left_eq]
    simp [hnil]

end Roots

/-! The entries of the flight loader -/

def queryRequests (e : Engine) (query : Text) : List Text :=
  match flightQuery query with
  | some (modules, _) => modules.filterMap (fun value => (moduleOption e value).map Prod.fst)
  | none => []

def flightRequests (e : Engine) (path : Text) : List Text :=
  (links path).flatMap (fun link => match link.entry? with
    | some (_, query) => queryRequests e query
    | none => [])

def canonicalPath (e : Engine) (path : Text) : Text := canonicalLinks e (fun _ => none) path

/-- The entries of the path are what they are under any root: there is none, with or without the
root, or the root has no delimiter and no entry names a module below it. -/
def FlightFree (e : Engine) (root path : Text) : Prop :=
  (¬ HasEntry (under root path) ∧ ¬ HasEntry path) ∨
    ((∀ c ∈ root, c ≠ '?' ∧ c ≠ '!' ∧ c ≠ '|') ∧
      ∀ request ∈ flightRequests e path, rootRelativePath e request (normalizedRoot root) = none)

section Flight

variable {e : Engine} {relative : Text → Option Text} {a s path query root : Text}

theorem links_ne_nil (s : Text) : links s ≠ [] := by
  cases s with
  | nil => simp [links]
  | cons =>
    rw [links]
    split
    · simp
    · split <;> simp

theorem links_append (ha : ∀ c ∈ a, c ≠ '!' ∧ c ≠ '|') {segment : Text} {delimiter : Option Char} {rest : List Link}
    (h : links s = (segment, delimiter) :: rest) : links (a ++ s) = (a ++ segment, delimiter) :: rest := by
  induction a with
  | nil => exact h
  | cons c a ih =>
    obtain ⟨h₁, h₂⟩ := ha c List.mem_cons_self
    rw [List.cons_append, links, if_neg (not_or.mpr ⟨h₁, h₂⟩), ih fun d hd => ha d (List.mem_cons_of_mem _ hd)]
    rfl

theorem links_text (s : Text) : (links s).flatMap Link.text = s := by
  induction s with
  | nil => rfl
  | cons c s ih =>
    rw [links]
    split_ifs
    · rw [List.flatMap_cons, ih]
      rfl
    · cases hlinks : links s with
      | nil => exact absurd hlinks (links_ne_nil s)
      | cons link =>
        obtain ⟨segment, delimiter⟩ := link
        rw [hlinks] at ih
        rw [List.flatMap_cons] at ih ⊢
        rw [← ih]
        rfl

theorem canonicalLinks_of_not (h : ¬ HasEntry s) : canonicalLinks e relative s = s := by
  have hall : ∀ link ∈ links s, canonicalLink e relative link = some link.text := by
    intro link hlink
    have hnone : link.entry? = none := by
      by_contra hsome
      exact h ⟨link, hlink, Option.isSome_iff_ne_none.mpr hsome⟩
    rw [canonicalLink, hnone]
  rw [canonicalLinks, mapM_congr hall, mapM_some, Option.elim_some, ← List.flatMap_def, links_text]

/-- A directory before a path changes nothing about whether it is a loader's. -/
theorem isLoaderPath_append (a path : Text) : isLoaderPath (a ++ '/' :: path) = isLoaderPath path := by
  have hname : '/' ∉ loaderName := by decide
  have hlength : (a ++ '/' :: path).length = a.length + 1 + path.length := by
    simp
    omega
  unfold isLoaderPath
  rw [hlength]
  by_cases hshort : path.length < loaderName.length
  · have hpath : path.drop (path.length - loaderName.length) = path := by
      rw [Nat.sub_eq_zero_of_le hshort.le, List.drop_zero]
    have hleft : decide ((path.drop (path.length - loaderName.length)).map Char.toLower = loaderName) = false := by
      refine decide_eq_false fun h => ?_
      rw [hpath] at h
      have hsame := congrArg List.length h
      rw [List.length_map] at hsame
      omega
    have hright : decide (((a ++ '/' :: path).drop (a.length + 1 + path.length - loaderName.length)).map Char.toLower =
        loaderName) = false := by
      refine decide_eq_false fun h => hname ?_
      rw [← h, List.drop_append_of_le_length (by omega)]
      exact List.mem_map.mpr ⟨'/', by simp, by decide⟩
    rw [hleft, hright, Bool.false_and, Bool.false_and]
  · rw [Nat.not_lt] at hshort
    have hsplit : a ++ '/' :: path = (a ++ ['/']) ++ path := by simp
    have hcut : a.length + 1 + path.length - loaderName.length = (a ++ ['/']).length + (path.length - loaderName.length) := by
      simp
      omega
    rw [hsplit, hcut, List.drop_append, List.take_append]
    simp only [Nat.add_sub_cancel_left]
    have hdrop : (a ++ ['/']).drop ((a ++ ['/']).length + (path.length - loaderName.length)) = [] :=
      List.drop_eq_nil_of_le (by omega)
    have htake : (a ++ ['/']).take ((a ++ ['/']).length + (path.length - loaderName.length)) = a ++ ['/'] :=
      List.take_of_length_le (by omega)
    rw [hdrop, htake, List.nil_append]
    congr 1
    by_cases heq : path.length = loaderName.length
    · have hzero : path.length - loaderName.length = 0 := by omega
      simp [heq]
    · have hne : a.length + 1 + path.length ≠ loaderName.length := by omega
      have htaken : path.take (path.length - loaderName.length) ≠ [] := by
        intro hnil
        have hlen := congrArg List.length hnil
        rw [List.length_take, List.length_nil] at hlen
        omega
      rw [decide_eq_false heq, decide_eq_false hne, List.getLast?_append_of_ne_nil _ htaken]

theorem entry_under (ha : ∀ c ∈ a, c ≠ '?') (segment : Text) (delimiter : Option Char) :
    Link.entry? (a ++ '/' :: segment, delimiter) =
      (Link.entry? (segment, delimiter)).map (fun found => (a ++ '/' :: found.1, found.2)) := by
  have hspan : (a ++ '/' :: segment).span (· ≠ '?') =
      (a ++ '/' :: (segment.span (· ≠ '?')).1, (segment.span (· ≠ '?')).2) := by
    have hall : ∀ c ∈ a ++ ['/'], decide (c ≠ '?') = true := by
      intro c hc
      obtain hc | hc := List.mem_append.mp hc
      · exact decide_eq_true (ha c hc)
      · rw [List.mem_singleton.mp hc]
        rfl
    rw [show a ++ '/' :: segment = (a ++ ['/']) ++ segment by simp, List.span_eq_takeWhile_dropWhile,
      List.span_eq_takeWhile_dropWhile, List.takeWhile_append_of_pos hall, List.dropWhile_append_of_pos hall]
    simp
  unfold Link.entry?
  dsimp only
  split
  · rw [hspan]
    obtain ⟨head, tail⟩ := segment.span (· ≠ '?')
    cases tail with
    | nil => rfl
    | cons c query =>
      by_cases hc : c = '?'
      · subst hc
        simp only [isLoaderPath_append]
        split_ifs <;> rfl
      · split
        · rename_i heq
          cases heq
          exact absurd rfl hc
        · split
          · rename_i heq
            cases heq
            exact absurd rfl hc
          · rfl
  · rfl

theorem canonicalLink_under (ha : ∀ c ∈ a, c ≠ '?') (segment : Text) (delimiter : Option Char) :
    canonicalLink e relative (a ++ '/' :: segment, delimiter) =
      (canonicalLink e relative (segment, delimiter)).map (fun text => a ++ '/' :: text) := by
  unfold canonicalLink
  rw [entry_under ha]
  cases Link.entry? (segment, delimiter) with
  | none => simp [Link.text]
  | some found =>
    obtain ⟨head, query⟩ := found
    simp only [Option.map_some]
    cases canonicalFlightQuery e relative query with
    | none => rfl
    | some => simp

theorem canonicalLinks_under (ha : ∀ c ∈ a, c ≠ '?' ∧ c ≠ '!' ∧ c ≠ '|') (path : Text) :
    canonicalLinks e relative (a ++ '/' :: path) = a ++ '/' :: canonicalLinks e relative path := by
  have hdelimiter : ∀ c ∈ a ++ ['/'], c ≠ '!' ∧ c ≠ '|' := by
    intro c hc
    obtain hc | hc := List.mem_append.mp hc
    · exact (ha c hc).2
    · rw [List.mem_singleton.mp hc]
      decide
  have hquery : ∀ c ∈ a, c ≠ '?' := fun c hc => (ha c hc).1
  cases hlinks : links path with
  | nil => exact absurd hlinks (links_ne_nil path)
  | cons link rest =>
    obtain ⟨segment, delimiter⟩ := link
    have hunder := links_append hdelimiter hlinks
    rw [show (a ++ ['/']) ++ path = a ++ '/' :: path by simp, show (a ++ ['/']) ++ segment = a ++ '/' :: segment by simp] at hunder
    unfold canonicalLinks
    rw [hunder, hlinks, List.mapM_cons, List.mapM_cons, canonicalLink_under hquery]
    cases canonicalLink e relative (segment, delimiter) with
    | none => rfl
    | some =>
      cases rest.mapM (canonicalLink e relative) with
      | none => rfl
      | some => simp

theorem hasEntry_under (ha : ∀ c ∈ a, c ≠ '?' ∧ c ≠ '!' ∧ c ≠ '|') (path : Text) :
    HasEntry (a ++ '/' :: path) ↔ HasEntry path := by
  have hdelimiter : ∀ c ∈ a ++ ['/'], c ≠ '!' ∧ c ≠ '|' := by
    intro c hc
    obtain hc | hc := List.mem_append.mp hc
    · exact (ha c hc).2
    · rw [List.mem_singleton.mp hc]
      decide
  have hquery : ∀ c ∈ a, c ≠ '?' := fun c hc => (ha c hc).1
  cases hlinks : links path with
  | nil => exact absurd hlinks (links_ne_nil path)
  | cons link =>
    obtain ⟨segment, delimiter⟩ := link
    have hunder := links_append hdelimiter hlinks
    rw [show (a ++ ['/']) ++ path = a ++ '/' :: path by simp, show (a ++ ['/']) ++ segment = a ++ '/' :: segment by simp] at hunder
    unfold HasEntry
    rw [hunder, hlinks, List.exists_mem_cons_iff, List.exists_mem_cons_iff, entry_under hquery, Option.isSome_map]

theorem canonicalModuleOption_congr {value : Text}
    (h : ∀ option, moduleOption e value = some option → relative option.1 = none) :
    canonicalModuleOption e relative value = canonicalModuleOption e (fun _ => none) value := by
  unfold canonicalModuleOption
  simp only [Option.bind_eq_bind]
  refine Option.bind_congr fun option hoption => ?_
  rw [h option hoption]

theorem canonicalFlightQuery_congr (h : ∀ request ∈ queryRequests e query, relative request = none) :
    canonicalFlightQuery e relative query = canonicalFlightQuery e (fun _ => none) query := by
  unfold canonicalFlightQuery
  simp only [Option.bind_eq_bind]
  refine Option.bind_congr fun found hfound => ?_
  obtain ⟨modules, servers⟩ := found
  have hmodules : modules.mapM (canonicalModuleOption e relative) = modules.mapM (canonicalModuleOption e (fun _ => none)) := by
    refine mapM_congr fun value hvalue => canonicalModuleOption_congr fun option hoption => h option.1 ?_
    unfold queryRequests
    rw [hfound]
    exact List.mem_filterMap.mpr ⟨value, hvalue, by rw [hoption, Option.map_some]⟩
  match servers with
  | [] => rfl
  | [server] =>
    dsimp only
    rw [hmodules]
  | _ :: _ :: _ => rfl

theorem canonicalLinks_congr (h : ∀ request ∈ flightRequests e path, relative request = none) :
    canonicalLinks e relative path = canonicalPath e path := by
  unfold canonicalPath canonicalLinks
  rw [mapM_congr fun link hlink => ?_]
  unfold canonicalLink
  cases hentry : link.entry? with
  | none => rfl
  | some found =>
    obtain ⟨head, query⟩ := found
    dsimp only
    rw [canonicalFlightQuery_congr fun request hrequest => h request ?_]
    refine List.mem_flatMap.mpr ⟨link, hlink, ?_⟩
    rw [hentry]
    exact hrequest

theorem rawQuery?_under (habsolute : isAbsolute root = true) (path : Text) : rawQuery? (under root path) = none := by
  unfold rawQuery?
  rw [if_neg]
  intro hprefix
  obtain ⟨t, ht⟩ := List.isPrefixOf_iff_prefix.mp hprefix
  have hslash : slash (under root path) = 'n' :: 'e' :: slash ("xt-flight-client-entry-loader?".toList ++ t) := by
    rw [← ht]
    exact (slash_cons (by decide) (by decide)).trans (congrArg _ (slash_cons (by decide) (by decide)))
  rw [slash_under] at hslash
  by_cases hroot : normalizedRoot root = ['/']
  · rw [folder_of_normalizedRoot hroot] at hslash
    cases hslash
  · rw [← (normalizedRoot_last hroot).1] at hslash
    obtain ⟨s, hs⟩ | ⟨c, s, hs, -⟩ := isAbsolute_head habsolute
    · rw [hs] at hslash
      cases hslash
    · rw [hs] at hslash
      cases hslash

theorem structured_under (habsolute : isAbsolute root = true) (h : FlightFree e root path) :
    canonicalizeNextFlightEntryIdentifier e (under root path) (normalizedRoot root) = under root (canonicalPath e path) := by
  have hplain : ¬ HasEntry (under root path) → ¬ HasEntry path →
      canonicalizeNextFlightEntryIdentifier e (under root path) (normalizedRoot root) = under root (canonicalPath e path) := by
    intro hunder hpath
    unfold canonicalizeNextFlightEntryIdentifier
    dsimp only
    rw [if_neg hunder, rawQuery?_under habsolute, canonicalPath, canonicalLinks_of_not hpath]
  obtain ⟨hunder, hpath⟩ | ⟨hroot, hrequests⟩ := h
  · exact hplain hunder hpath
  · have hfolder : ∀ c ∈ folder root, c ≠ '?' ∧ c ≠ '!' ∧ c ≠ '|' := fun c hc =>
      hroot c ((List.rdropWhile_prefix isSeparator root).subset hc)
    by_cases hentry : HasEntry path
    · unfold canonicalizeNextFlightEntryIdentifier
      dsimp only
      have hunder : HasEntry (under root path) := (hasEntry_under hfolder path).mpr hentry
      rw [if_pos hunder]
      exact (canonicalLinks_under hfolder path).trans (congrArg _ (congrArg _ (canonicalLinks_congr hrequests)))
    · exact hplain (mt (hasEntry_under hfolder path).mp hentry) hentry

end Flight

/-! Identifiers -/

section Identifiers

variable {e : Engine} {root path : Text}

theorem normalize_under_iff (habsolute : isAbsolute root = true) (h : FlightFree e root path) :
    normalizeModuleIdentifier e (under root path) root = projectRoot ++ '/' :: slash (canonicalPath e path) ↔
      OnlyRoot e root (slash (canonicalPath e path)) := by
  unfold normalizeModuleIdentifier
  dsimp only
  rw [structured_under habsolute h]
  split_ifs with hroot
  · exact replaceFilesystemRoot_iff hroot _
  · rw [replaceRoot, slash_under, ← (normalizedRoot_last hroot).1]
    exact run_passes_iff habsolute hroot

end Identifiers

/-! Checkouts -/

def plainEngine : Engine := ⟨Char.toUpper, fun text => text.map Char.toLower, fun text => Json.parse (String.ofList text)⟩

def ordinaryPath : Text := "src/lib/api.ts".toList

def pagePath : Text := "src/app/page.tsx".toList

end GrowthMap.ProjectRoot
