import GrowthMap.Db.Contract
import Mathlib.Data.List.Forall2
import Mathlib.Data.List.TakeWhile

/- A text cut at its quotes, and what the rewriting of `normalize_sql` does to the
   segments.

   Every step of the rewriting works on the segments one by one: none adds, drops
   or moves a quote, and a quote is neither white space nor punctuation nor part of
   a word. Only `strip` looks at the first and the last segment alone. -/
namespace GrowthMap.Db

def segments : List Char → List (List Char)
  | [] => [[]]
  | c :: s =>
    if c = '\'' then [] :: segments s
    else match segments s with
      | [] => [[c]]
      | t :: ts => (c :: t) :: ts

def outside : List (List Char) → List (List Char)
  | [] => []
  | [s] => [s]
  | s :: _ :: ss => s :: outside ss

def literals : List (List Char) → List (List Char)
  | _ :: l :: ss => l :: literals ss
  | _ => []

variable {U : Unicode} {c : Char} {s t : List Char} {ss ts : List (List Char)}

/-! Segments -/

theorem segments_ne_nil : segments s ≠ [] := by
  induction s with
  | nil => simp [segments]
  | cons =>
    unfold segments
    split
    · simp
    · split <;> simp

theorem segments_quote : segments ('\'' :: s) = [] :: segments s := by simp [segments]

theorem segments_cons (hc : c ≠ '\'') (h : segments s = t :: ts) : segments (c :: s) = (c :: t) :: ts := by
  simp [segments, hc, h]

theorem segments_split (s : List Char) : ∃ t ts, segments s = t :: ts := List.exists_cons_of_ne_nil segments_ne_nil

variable {p r b w : List Char}

theorem segments_append (hp : '\'' ∉ p) (h : segments s = t :: ts) : segments (p ++ s) = (p ++ t) :: ts := by
  induction p with
  | nil => exact h
  | cons c p ih =>
    have hc : c ≠ '\'' := fun heq => hp (heq ▸ List.mem_cons_self)
    exact segments_cons hc (ih (fun hmem => hp (List.mem_cons_of_mem _ hmem)))

theorem eq_of_segments (h : segments s = [t]) : s = t := by
  induction s generalizing t with
  | nil => simpa [segments] using h
  | cons c s ih =>
    by_cases hc : c = '\''
    · subst hc
      rw [segments_quote] at h
      exact absurd (List.cons.inj h).2 segments_ne_nil
    · obtain ⟨u, us, hs⟩ := segments_split s
      rw [segments_cons hc hs] at h
      obtain ⟨rfl, rfl⟩ := List.cons.inj h
      rw [ih hs]

theorem mem_segments (hc : c ∈ s) : c = '\'' ∨ ∃ t ∈ segments s, c ∈ t := by
  induction s with
  | nil => cases hc
  | cons d s ih =>
    by_cases hd : d = '\''
    · subst hd
      rw [segments_quote]
      rcases List.mem_cons.mp hc with rfl | hc
      · exact .inl rfl
      · exact (ih hc).imp_right (fun ⟨t, ht, hct⟩ => ⟨t, List.mem_cons_of_mem _ ht, hct⟩)
    · obtain ⟨t, ts, hs⟩ := segments_split s
      rw [segments_cons hd hs]
      rcases List.mem_cons.mp hc with rfl | hc
      · exact .inr ⟨_, List.mem_cons_self, List.mem_cons_self⟩
      · refine (ih hc).imp_right (fun ⟨u, hu, hcu⟩ => ?_)
        rw [hs] at hu
        rcases List.mem_cons.mp hu with rfl | hu
        · exact ⟨_, List.mem_cons_self, List.mem_cons_of_mem _ hcu⟩
        · exact ⟨u, List.mem_cons_of_mem _ hu, hcu⟩

theorem mem_outside_or_literals : ∀ {ss : List (List Char)}, t ∈ ss → t ∈ outside ss ∨ t ∈ literals ss
  | [_], h => .inl h
  | s :: l :: ss, h => by
    rcases List.mem_cons.mp h with rfl | h
    · exact .inl List.mem_cons_self
    rcases List.mem_cons.mp h with rfl | h
    · exact .inr List.mem_cons_self
    · exact (mem_outside_or_literals h).imp (List.mem_cons_of_mem _) (List.mem_cons_of_mem _)

/-! What the steps do to them -/

theorem segments_map {f : Char → Char} (hf : ∀ c, f c = '\'' ↔ c = '\'') : segments (s.map f) = (segments s).map (List.map f) := by
  induction s with
  | nil => rfl
  | cons c s ih =>
    by_cases hc : c = '\''
    · have hfc := (hf c).mpr hc
      subst hc
      rw [List.map_cons, hfc, segments_quote, segments_quote, ih]
      rfl
    · obtain ⟨t, ts, hs⟩ := segments_split s
      rw [hs] at ih
      rw [List.map_cons, segments_cons (fun h => hc ((hf c).mp h)) ih, segments_cons hc hs]
      rfl

theorem isSpace_quote : isSpace '\'' = false := by decide

theorem isPunct_quote : isPunct '\'' = false := by decide

theorem segments_dropSpace : segments (s.dropWhile isSpace) = (segments s).modifyHead (List.dropWhile isSpace) := by
  induction s with
  | nil => rfl
  | cons c s ih =>
    by_cases hc : c = '\''
    · subst hc
      rw [List.dropWhile_cons_of_neg (by simp [isSpace_quote]), segments_quote]
      rfl
    · obtain ⟨t, ts, hs⟩ := segments_split s
      rw [segments_cons hc hs]
      by_cases hspace : isSpace c = true
      · rw [List.dropWhile_cons_of_pos hspace, ih, hs]
        simp [List.dropWhile_cons_of_pos hspace]
      · rw [List.dropWhile_cons_of_neg hspace, segments_cons hc hs]
        simp [List.dropWhile_cons_of_neg hspace]

/-- `rstrip` of the last segment. -/
def rstripLast : List (List Char) → List (List Char)
  | [] => []
  | [s] => [rstrip s]
  | s :: t :: ss => s :: rstripLast (t :: ss)

theorem rstripLast_cons (h : ss ≠ []) : rstripLast (s :: ss) = s :: rstripLast ss := by
  obtain ⟨t, ts, rfl⟩ := List.exists_cons_of_ne_nil h
  rfl

theorem rstripLast_ne_nil (h : ss ≠ []) : rstripLast ss ≠ [] := by
  match ss, h with
  | [s], _ => simp [rstripLast]
  | s :: t :: ss, _ => simp [rstripLast]

theorem segments_rstrip : segments (rstrip s) = rstripLast (segments s) := by
  induction s with
  | nil => rfl
  | cons c s ih =>
    by_cases hc : c = '\''
    · subst hc
      have hkeep : rstrip ('\'' :: s) = '\'' :: rstrip s := by simp [rstrip, isSpace_quote]
      rw [hkeep, segments_quote, segments_quote, rstripLast_cons segments_ne_nil, ih]
    · obtain ⟨t, ts, hs⟩ := segments_split s
      rw [segments_cons hc hs]
      by_cases hts : ts = []
      · subst hts
        obtain rfl := eq_of_segments hs
        rw [hs] at ih
        simp only [rstrip, rstripLast]
        split
        · rfl
        · exact segments_cons hc ih
      · rw [hs, rstripLast_cons hts] at ih
        have hne : rstrip s ≠ [] := by
          intro hnil
          rw [hnil] at ih
          exact rstripLast_ne_nil hts (List.cons.inj ih).2.symm
        have hkeep : rstrip (c :: s) = c :: rstrip s := by simp [rstrip, hne]
        rw [hkeep, segments_cons hc ih, rstripLast_cons hts]

theorem segments_collapseAfter {space : Bool} (h : segments s = t :: ts) :
    segments (collapseAfter space s) = collapseAfter space t :: ts.map collapse := by
  induction s generalizing space t ts with
  | nil =>
    obtain ⟨rfl, rfl⟩ := List.cons.inj h
    rfl
  | cons c s ih =>
    by_cases hc : c = '\''
    · subst hc
      rw [segments_quote] at h
      obtain ⟨rfl, rfl⟩ := List.cons.inj h
      obtain ⟨u, us, hs⟩ := segments_split s
      have hkeep : collapseAfter space ('\'' :: s) = '\'' :: collapseAfter false s := by simp [collapseAfter, isSpace_quote]
      rw [hkeep, segments_quote, ih hs, hs]
      rfl
    · obtain ⟨u, us, hs⟩ := segments_split s
      rw [segments_cons hc hs] at h
      obtain ⟨rfl, rfl⟩ := List.cons.inj h
      have hblank : ' ' ≠ '\'' := by decide
      simp only [collapseAfter]
      split
      · split
        · exact ih hs
        · exact segments_cons hblank (ih hs)
      · exact segments_cons hc (ih hs)

theorem segments_collapse : segments (collapse s) = (segments s).map collapse := by
  obtain ⟨t, ts, hs⟩ := segments_split s
  rw [hs]
  exact segments_collapseAfter hs

theorem head?_of_segments (h : segments s = t :: ts) {p : Char → Bool} (hp : p '\'' = false) : s.head?.any p = t.head?.any p := by
  cases s with
  | nil =>
    obtain ⟨rfl, rfl⟩ := List.cons.inj h
    rfl
  | cons c s =>
    by_cases hc : c = '\''
    · subst hc
      rw [segments_quote] at h
      obtain ⟨rfl, rfl⟩ := List.cons.inj h
      simp [hp]
    · obtain ⟨u, us, hs⟩ := segments_split s
      rw [segments_cons hc hs] at h
      obtain ⟨rfl, rfl⟩ := List.cons.inj h
      rfl

theorem segments_tighten : segments (tighten s) = (segments s).map tighten := by
  induction s with
  | nil => rfl
  | cons c s ih =>
    obtain ⟨t, ts, hs⟩ := segments_split s
    rw [hs, List.map_cons] at ih
    by_cases hc : c = '\''
    · subst hc
      have hkeep : tighten ('\'' :: s) = '\'' :: tighten s := by simp [tighten, isSpace_quote, isPunct_quote]
      rw [hkeep, segments_quote, segments_quote, ih, hs]
      rfl
    · rw [segments_cons hc hs, List.map_cons]
      simp only [tighten, head?_of_segments ih isPunct_quote]
      split
      · split
        · exact ih
        · exact segments_cons hc ih
      · split
        · have hdrop : segments ((tighten s).dropWhile isSpace) = (tighten t).dropWhile isSpace :: ts.map tighten := by
            rw [segments_dropSpace, ih]
            rfl
          exact segments_cons hc hdrop
        · exact segments_cons hc ih

/-! What `IF NOT EXISTS` does to them -/

def Spells (word w : List Char) : Prop := List.Forall₂ (fun l c => matchesLetter l c = true) word w

def Gap (b : List Char) : Prop := b ≠ [] ∧ ∀ c ∈ b, isSpace c = true

/-- The texts that `IF\s+NOT\s+EXISTS` matches. -/
def Phrase (p : List Char) : Prop := ∃ w₁ b₁ w₂ b₂ w₃, p = w₁ ++ (b₁ ++ (w₂ ++ (b₂ ++ w₃))) ∧ Spells "IF".toList w₁ ∧ Gap b₁ ∧
  Spells "NOT".toList w₂ ∧ Gap b₂ ∧ Spells "EXISTS".toList w₃

variable {word : List Char}

theorem eatWord_eq_some : eatWord word s = some r ↔ ∃ w, s = w ++ r ∧ Spells word w := by
  induction word generalizing s with
  | nil => simp [eatWord, Spells]
  | cons l word ih =>
    cases s with
    | nil => simp [eatWord, Spells]
    | cons c =>
      simp only [eatWord]
      split
      · rename_i hmatch
        rw [ih]
        constructor
        · rintro ⟨w, rfl, hw⟩
          exact ⟨c :: w, rfl, .cons hmatch hw⟩
        · rintro ⟨w, hs, hw⟩
          cases hw with
          | cons _ hw =>
            obtain ⟨-, rfl⟩ := List.cons.inj hs
            exact ⟨_, rfl, hw⟩
      · rename_i hmatch
        simp only [reduceCtorEq, false_iff, not_exists, not_and]
        rintro w hs hw
        cases hw with
        | cons hl =>
          obtain ⟨rfl, -⟩ := List.cons.inj hs
          exact hmatch hl

theorem eatSpaces_some (h : eatSpaces s = some r) : ∃ b, s = b ++ r ∧ Gap b := by
  cases s with
  | nil => cases h
  | cons c s =>
    simp only [eatSpaces] at h
    split at h
    · rename_i hspace
      cases h
      refine ⟨c :: s.takeWhile isSpace, by simp, by simp, ?_⟩
      intro d hd
      rcases List.mem_cons.mp hd with rfl | hd
      · exact hspace
      · exact List.mem_takeWhile_imp hd
    · cases h

theorem eatSpaces_gap (hb : Gap b) (hr : r.head?.any isSpace = false) : eatSpaces (b ++ r) = some r := by
  obtain ⟨hne, hall⟩ := hb
  obtain ⟨c, b, rfl⟩ := List.exists_cons_of_ne_nil hne
  have hdrop : (b ++ r).dropWhile isSpace = r := by
    rw [List.dropWhile_append_of_pos (fun d hd => hall d (List.mem_cons_of_mem _ hd))]
    cases r with
    | nil => rfl
    | cons => exact List.dropWhile_cons_of_neg (by simpa using hr)
  simp [eatSpaces, hall c List.mem_cons_self, hdrop]

theorem ascii_forall {P : Char → Prop} (h : ∀ n < 128, P (Char.ofNat n)) (hc : c.toNat < 128) : P c := by
  have hp := h c.toNat hc
  rwa [Char.ofNat_toNat] at hp

theorem toUpper_of_le (h : 128 ≤ c.toNat) : c.toUpper = c := by
  unfold Char.toUpper
  rw [dif_neg]
  rintro ⟨-, hz⟩
  have hz : c.toNat ≤ 122 := hz
  omega

theorem toUpper_of_isSpace (h : isSpace c = true) : c.toUpper = c := by
  by_cases hc : c.toNat < 128
  · exact @ascii_forall c (fun c => isSpace c = true → c.toUpper = c) (by decide) hc h
  · exact toUpper_of_le (Nat.le_of_not_lt hc)

theorem not_isSpace_of_matches {l : Char} (hl : isSpace l = false) (h : matchesLetter l c = true) : isSpace c = false := by
  by_contra hspace
  rw [Bool.not_eq_false] at hspace
  simp only [matchesLetter, Bool.or_eq_true, Bool.and_eq_true, beq_iff_eq] at h
  rcases h with (hupper | ⟨-, hi | hi⟩) | ⟨-, hs⟩
  · rw [toUpper_of_isSpace hspace] at hupper
    rw [hupper, hl] at hspace
    cases hspace
  · simp [isSpace, hi] at hspace
  · simp [isSpace, hi] at hspace
  · simp [isSpace, hs] at hspace

theorem eatPhrase_some (h : eatPhrase s = some r) : ∃ p, s = p ++ r ∧ Phrase p := by
  obtain ⟨s₁, h₁, h⟩ := Option.bind_eq_some_iff.mp h
  obtain ⟨s₂, h₂, h⟩ := Option.bind_eq_some_iff.mp h
  obtain ⟨s₃, h₃, h⟩ := Option.bind_eq_some_iff.mp h
  obtain ⟨s₄, h₄, h₅⟩ := Option.bind_eq_some_iff.mp h
  obtain ⟨w₁, rfl, hw₁⟩ := eatWord_eq_some.mp h₁
  obtain ⟨b₁, rfl, hb₁⟩ := eatSpaces_some h₂
  obtain ⟨w₂, rfl, hw₂⟩ := eatWord_eq_some.mp h₃
  obtain ⟨b₂, rfl, hb₂⟩ := eatSpaces_some h₄
  obtain ⟨w₃, rfl, hw₃⟩ := eatWord_eq_some.mp h₅
  exact ⟨_, by simp, w₁, b₁, w₂, b₂, w₃, rfl, hw₁, hb₁, hw₂, hb₂, hw₃⟩

theorem Spells.head_not_space {l : Char} (hl : isSpace l = false) (h : Spells (l :: word) w) :
    (w ++ r).head?.any isSpace = false := by
  cases h with
  | cons h => simpa using not_isSpace_of_matches hl h

theorem Phrase.eat (h : Phrase p) : eatPhrase (p ++ r) = some r := by
  obtain ⟨w₁, b₁, w₂, b₂, w₃, rfl, hw₁, hb₁, hw₂, hb₂, hw₃⟩ := h
  simp only [List.append_assoc]
  refine Option.bind_eq_some_iff.mpr ⟨_, eatWord_eq_some.mpr ⟨w₁, rfl, hw₁⟩, ?_⟩
  refine Option.bind_eq_some_iff.mpr ⟨_, eatSpaces_gap hb₁ (hw₂.head_not_space (by decide)), ?_⟩
  refine Option.bind_eq_some_iff.mpr ⟨_, eatWord_eq_some.mpr ⟨w₂, rfl, hw₂⟩, ?_⟩
  refine Option.bind_eq_some_iff.mpr ⟨_, eatSpaces_gap hb₂ (hw₃.head_not_space (by decide)), ?_⟩
  exact eatWord_eq_some.mpr ⟨w₃, rfl, hw₃⟩

/-- Occurrences of the phrase taken out, where it stands on its own; the flag
tells whether a character of a word stands before the text. -/
inductive Removed (U : Unicode) : Bool → List Char → List Char → Prop where
  | nil {word : Bool} : Removed U word [] []
  | keep {word : Bool} {c : Char} {s r : List Char} : Removed U (U.isWord c) s r → Removed U word (c :: s) (c :: r)
  | drop {word : Bool} {p s r : List Char} :
      Phrase p → s.head?.any U.isWord = false → Removed U word s r → Removed U false (p ++ s) r

theorem cutAfter_skip {prev : Option Char} (k : Nat) : ∃ prev', cutAfter U k prev s = cutAfter U 0 prev' (s.drop k) := by
  induction k generalizing s prev with
  | zero => exact ⟨prev, by simp⟩
  | succ k ih =>
    cases s with
    | nil => exact ⟨prev, by simp [cutAfter]⟩
    | cons => exact ih

theorem Phrase.ne_nil (h : Phrase p) : p ≠ [] := by
  obtain ⟨w₁, b₁, w₂, b₂, w₃, rfl, hw₁, -⟩ := h
  cases hw₁
  simp

theorem removed_cutAfter {prev : Option Char} : Removed U (prev.any U.isWord) s (cutAfter U 0 prev s) := by
  induction hn : s.length using Nat.strong_induction_on generalizing s prev with
  | _ n ih =>
    cases s with
    | nil => exact .nil
    | cons c s =>
      have hkeep : Removed U (prev.any U.isWord) (c :: s) (c :: cutAfter U 0 (some c) s) :=
        .keep (@ih s.length (by simp at hn; omega) s (some c) rfl)
      simp only [cutAfter]
      split
      · rename_i rest hrest
        split
        · rename_i hedge
          split at hrest
          · rename_i hprev
            obtain ⟨p, hp, hphrase⟩ := eatPhrase_some hrest
            obtain ⟨d, p, rfl⟩ := List.exists_cons_of_ne_nil hphrase.ne_nil
            rw [List.cons_append] at hp
            obtain ⟨rfl, rfl⟩ := List.cons.inj hp
            obtain ⟨prev', hskip⟩ := @cutAfter_skip U (p ++ rest) (some c) ((p ++ rest).length - rest.length)
            have hdrop : (p ++ rest).drop ((p ++ rest).length - rest.length) = rest := by simp
            have hword : prev.any U.isWord = false := by simpa [Unicode.edge] using hprev
            rw [hskip, hdrop, hword]
            exact .drop hphrase (by simpa [Unicode.edge] using hedge) (ih rest.length (by simp at hn; omega) rfl)
          · cases hrest
        · exact hkeep
      · exact hkeep

theorem removed_cut : Removed U false s (cut U s) := @removed_cutAfter U s none

theorem isWord_quote : U.isWord '\'' = false := by
  rw [Unicode.isWord, U.isAlnum_ascii _ (by decide)]
  decide

theorem Spells.no_quote (hword : ∀ l ∈ word, matchesLetter l '\'' = false) (h : Spells word w) : '\'' ∉ w := by
  induction h with
  | nil => simp
  | cons hl _ ih =>
    rintro hmem
    rcases List.mem_cons.mp hmem with rfl | hmem
    · rw [hword _ List.mem_cons_self] at hl
      cases hl
    · exact ih (fun l hl => hword l (List.mem_cons_of_mem _ hl)) hmem

theorem Gap.no_quote (h : Gap b) : '\'' ∉ b := by
  intro hmem
  have hspace := h.2 _ hmem
  rw [isSpace_quote] at hspace
  cases hspace

theorem Phrase.no_quote (h : Phrase p) : '\'' ∉ p := by
  obtain ⟨w₁, b₁, w₂, b₂, w₃, rfl, hw₁, hb₁, hw₂, hb₂, hw₃⟩ := h
  simp only [List.mem_append, not_or]
  exact ⟨hw₁.no_quote (by simp [matchesLetter]), hb₁.no_quote, hw₂.no_quote (by simp [matchesLetter]), hb₂.no_quote,
    hw₃.no_quote (by simp [matchesLetter])⟩

/-- The phrase is taken out of the segments one by one. -/
theorem Removed.segments {word : Bool} (h : Removed U word s r) (hs : segments s = t :: ts) :
    ∃ t' ts', Db.segments r = t' :: ts' ∧ Removed U word t t' ∧ List.Forall₂ (Removed U false) ts ts' := by
  induction h generalizing t ts with
  | nil =>
    obtain ⟨rfl, rfl⟩ := List.cons.inj hs
    exact ⟨[], [], rfl, .nil, .nil⟩
  | @keep word c s r h ih =>
    obtain ⟨u, us, hsplit⟩ := segments_split s
    obtain ⟨u', us', hr, hu, hus⟩ := ih hsplit
    by_cases hc : c = '\''
    · subst hc
      rw [segments_quote, hsplit] at hs
      obtain ⟨rfl, rfl⟩ := List.cons.inj hs
      rw [isWord_quote] at hu
      exact ⟨[], u' :: us', by rw [segments_quote, hr], .nil, .cons hu hus⟩
    · rw [segments_cons hc hsplit] at hs
      obtain ⟨rfl, rfl⟩ := List.cons.inj hs
      exact ⟨c :: u', us', segments_cons hc hr, .keep hu, hus⟩
  | @drop word p s r hphrase hedge h ih =>
    obtain ⟨u, us, hsplit⟩ := segments_split s
    obtain ⟨u', us', hr, hu, hus⟩ := ih hsplit
    rw [segments_append hphrase.no_quote hsplit] at hs
    obtain ⟨rfl, rfl⟩ := List.cons.inj hs
    rw [head?_of_segments hsplit isWord_quote] at hedge
    exact ⟨u', us', hr, .drop hphrase hedge hu, hus⟩

end GrowthMap.Db
