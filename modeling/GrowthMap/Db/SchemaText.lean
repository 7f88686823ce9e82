import GrowthMap.Db.Tokens

/- What the texts that pass as the contract's index and triggers have in common.

   `normalize_sql` rewrites the whole statement, literals included. A text that
   comes out like the contract's has the contract's literals and, `IF NOT EXISTS`
   aside, its tokens exactly when the rewriting left the literals alone, nothing but
   printable ASCII and SQLite's white space stands outside of them, and every `!`
   there stands directly before its `=`. -/
namespace GrowthMap.Db

open Pieces

/-- The rewriting leaves the text as it is. -/
structure Plain (U : Unicode) (l : List Char) : Prop where
  /-- no letter that `lower` changes -/
  lower : ∀ c ∈ l, c ≠ 'Σ' ∧ U.lower c = [c]
  /-- no white space but blanks -/
  blanks : ∀ c ∈ l, isSpace c = true → c = ' '
  /-- single ones, and none beside punctuation -/
  spaced : l.IsChain (fun a b => ¬ (isSpace a = true ∧ (isSpace b = true ∨ isPunct b = true)) ∧ ¬ (isPunct a = true ∧ isSpace b = true))
  noPhrase : ∀ t ∈ l.tails, eatPhrase t = none

def printable (c : Char) : Bool := 32 < c.toNat && c.toNat < 127

def Ascii (s : List Char) : Prop := ∀ c ∈ s, printable c = true ∨ sqlSpace c = true

/-- Every `!` stands directly before a `=`. -/
def bangs : List Char → Bool
  | [] => true
  | c :: s => (c != '!' || s.head? == some '=') && bangs s

structure Clean (U : Unicode) (text : List Char) : Prop where
  literals : ∀ l ∈ literals (segments text), Plain U l
  ascii : ∀ s ∈ outside (segments text), Ascii s
  bangs : ∀ s ∈ outside (segments text), bangs s = true

/-- The same literals, and the same tokens between them. -/
structure Matches (text sql : List Char) : Prop where
  literals : literals (segments text) = literals (segments sql)
  tokens : List.Forall₂ (fun s t => Cuts (tokens s) (tokens t)) (outside (segments text)) (outside (segments sql))

-- all characters could be gone through as well, and are too many
local instance decidableLetters (p : Char → Prop) [DecidablePred p] (l : List Char) : Decidable (∀ c ∈ l, p c) :=
  List.decidableBAll p l

variable {U : Unicode} {c : Char} {a b s r t : List Char}

/-! Characters -/

theorem toLower_of_le (h : 128 ≤ c.toNat) : c.toLower = c := by
  unfold Char.toLower
  rw [dif_neg]
  rintro ⟨-, hz⟩
  have hz : c.toNat ≤ 90 := hz
  omega

theorem lt_of_printable (h : printable c = true) : c.toNat < 128 := by
  simp only [printable, Bool.and_eq_true, decide_eq_true_eq] at h
  omega

theorem lt_of_sqlSpace (h : sqlSpace c = true) : c.toNat < 128 := by
  simp only [sqlSpace, List.contains_eq_mem, decide_eq_true_eq] at h
  revert h
  generalize c.toNat = n
  simp only [List.mem_cons, List.not_mem_nil, or_false]
  omega

theorem isSpace_toLower : isSpace c.toLower = isSpace c := by
  by_cases hc : c.toNat < 128
  · exact @ascii_forall c (fun c => isSpace c.toLower = isSpace c) (by decide) hc
  · rw [toLower_of_le (Nat.le_of_not_lt hc)]

theorem sqlSpace_of_isSpace (h : printable c = true ∨ sqlSpace c = true) (hspace : isSpace c = true) : sqlSpace c = true := by
  rcases h with h | h
  · have hnot := @ascii_forall c (fun c => printable c = true → isSpace c = false) (by decide) (lt_of_printable h) h
    rw [hspace] at hnot
    cases hnot
  · exact h

theorem ascii_toLower (h : printable c = true ∨ sqlSpace c = true) : printable c.toLower = true ∨ sqlSpace c.toLower = true := by
  have hc : c.toNat < 128 := h.elim lt_of_printable lt_of_sqlSpace
  exact @ascii_forall c (fun c => printable c = true ∨ sqlSpace c = true → printable c.toLower = true ∨ sqlSpace c.toLower = true)
    (by decide) hc h

theorem idChar_toLower (h : printable c = true ∨ sqlSpace c = true) : idChar c.toLower = U.isWord c := by
  have hc : c.toNat < 128 := h.elim lt_of_printable lt_of_sqlSpace
  rw [Unicode.isWord, U.isAlnum_ascii c hc]
  exact @ascii_forall c (fun c => idChar c.toLower = (c.isAlphanum || c == '_')) (by decide) hc

theorem Ascii.lowerCase (h : Ascii s) : Ascii (lowerCase s) := by
  intro c hc
  obtain ⟨d, hd, rfl⟩ := List.mem_map.mp hc
  exact ascii_toLower (h d hd)

theorem Ascii.tail (h : Ascii (c :: s)) : Ascii s := fun d hd => h d (List.mem_cons_of_mem _ hd)

theorem Ascii.sqlSpace (h : Ascii s) : ∀ c ∈ s, isSpace c = true → Db.sqlSpace c = true :=
  fun c hc hspace => sqlSpace_of_isSpace (h c hc) hspace

/-! Every `!` keeps its `=` -/

theorem bangs_cons (h : bangs (c :: s) = true) : (c = '!' → s.head? = some '=') ∧ bangs s = true := by
  simp only [bangs, Bool.and_eq_true, Bool.or_eq_true, bne_iff_ne, ne_eq, beq_iff_eq] at h
  exact ⟨fun hc => h.1.resolve_left (fun hne => hne hc), h.2⟩

theorem bangs_of_cons (hc : c = '!' → s.head? = some '=') (h : bangs s = true) : bangs (c :: s) = true := by
  simp only [bangs, Bool.and_eq_true, Bool.or_eq_true, bne_iff_ne, ne_eq, beq_iff_eq]
  exact ⟨or_iff_not_imp_left.mpr (fun hne => hc (not_not.mp hne)), h⟩

theorem bangs_suffix (h : bangs (a ++ s) = true) : bangs s = true := by
  induction a with
  | nil => exact h
  | cons c a ih => exact ih (bangs_cons h).2

theorem head?_of_bangs (h : bangs (a ++ '!' :: s) = true) : s.head? = some '=' := (bangs_cons (bangs_suffix h)).1 rfl

theorem toLower_eq_iff {d : Char} (hd : d = '!' ∨ d = '=' ∨ d = '\'') : c.toLower = d ↔ c = d := by
  by_cases hc : c.toNat < 128
  · rcases hd with rfl | rfl | rfl
    · exact @ascii_forall c (fun c => c.toLower = '!' ↔ c = '!') (by decide) hc
    · exact @ascii_forall c (fun c => c.toLower = '=' ↔ c = '=') (by decide) hc
    · exact @ascii_forall c (fun c => c.toLower = '\'' ↔ c = '\'') (by decide) hc
  · rw [toLower_of_le (Nat.le_of_not_lt hc)]

theorem bangs_lowerCase (h : bangs s = true) : bangs (lowerCase s) = true := by
  induction s with
  | nil => rfl
  | cons c s ih =>
    obtain ⟨hc, hs⟩ := bangs_cons h
    refine bangs_of_cons (fun hlower => ?_) (ih hs)
    have hhead := hc ((toLower_eq_iff (.inl rfl)).mp hlower)
    show (s.map Char.toLower).head? = _
    rw [List.head?_map, hhead]
    rfl

theorem head?_rstrip (h : s.head? = some '=') : (rstrip s).head? = some '=' := by
  obtain ⟨s, rfl⟩ := List.head?_eq_some_iff.mp h
  simp [rstrip, show isSpace '=' = false by decide]

theorem bangs_rstrip (h : bangs s = true) : bangs (rstrip s) = true := by
  induction s with
  | nil => rfl
  | cons c s ih =>
    obtain ⟨hc, hs⟩ := bangs_cons h
    simp only [rstrip]
    split
    · rfl
    · exact bangs_of_cons (fun heq => head?_rstrip (hc heq)) (ih hs)

variable {space : Bool} {p w x l : List Char} {α β : Type} {as : List α} {bs : List β}

theorem head?_collapseAfter (h : s.head? = some '=') : (collapseAfter space s).head? = some '=' := by
  obtain ⟨s, rfl⟩ := List.head?_eq_some_iff.mp h
  simp [collapseAfter, show isSpace '=' = false by decide]

theorem bangs_collapseAfter (h : bangs s = true) : bangs (collapseAfter space s) = true := by
  induction s generalizing space with
  | nil => rfl
  | cons c s ih =>
    obtain ⟨hc, hs⟩ := bangs_cons h
    have hblank : ' ' = '!' → (collapseAfter true s).head? = some '=' := fun heq => absurd heq (by decide)
    simp only [collapseAfter]
    split
    · split
      · exact ih hs
      · exact bangs_of_cons hblank (ih hs)
    · exact bangs_of_cons (fun heq => head?_collapseAfter (hc heq)) (ih hs)

theorem bangs_dropSpace (h : bangs s = true) : bangs (s.dropWhile isSpace) = true := by
  rw [← @List.takeWhile_append_dropWhile _ isSpace s] at h
  exact bangs_suffix h

theorem Phrase.head (h : Phrase p) : ∃ c q, p = c :: q ∧ matchesLetter 'I' c = true := by
  obtain ⟨w₁, b₁, w₂, b₂, w₃, rfl, hw₁, -⟩ := h
  cases hw₁ with
  | cons hI _ => exact ⟨_, _, rfl, hI⟩

variable {word : Bool} {text : String}

theorem Removed.head?_eq (h : Removed U word s r) (hs : s.head? = some '=') : r.head? = some '=' := by
  cases h with
  | nil => exact hs
  | keep => exact hs
  | drop hphrase =>
    obtain ⟨c, q, rfl, hI⟩ := hphrase.head
    obtain rfl : c = '=' := Option.some.inj hs
    exact absurd hI (by decide)

theorem bangs_of_removed (h : Removed U word s r) (hs : bangs s = true) : bangs r = true := by
  induction h with
  | nil => rfl
  | keep h ih =>
    obtain ⟨hc, hs⟩ := bangs_cons hs
    exact bangs_of_cons (fun heq => h.head?_eq (hc heq)) (ih hs)
  | drop _ _ _ ih => exact ih (bangs_suffix hs)

/-! White space between pieces -/

theorem sqlSpace_blank : sqlCutter.blank ' ' = true := by decide

theorem pieces_dropSpace (hs : Ascii s) : sqlCutter.pieces (s.dropWhile isSpace) = sqlCutter.pieces s := by
  have hw : ∀ c ∈ s.takeWhile isSpace, sqlCutter.blank c = true := fun c hc =>
    hs.sqlSpace c ((List.takeWhile_prefix _).subset hc) (List.mem_takeWhile_imp hc)
  calc sqlCutter.pieces (s.dropWhile isSpace)
      = sqlCutter.pieces (s.takeWhile isSpace ++ s.dropWhile isSpace) := (pieces_blanks hw).symm
    _ = sqlCutter.pieces s := by rw [List.takeWhile_append_dropWhile]

theorem pieces_rstrip (hs : Ascii s) : sqlCutter.pieces (a ++ rstrip s) = sqlCutter.pieces (a ++ s) := by
  induction s generalizing a with
  | nil => rfl
  | cons c s ih =>
    have hnext := @ih (a ++ [c]) hs.tail
    rw [List.append_assoc, List.append_assoc, List.singleton_append, List.singleton_append] at hnext
    simp only [rstrip]
    split
    · rename_i h
      have hblank : sqlCutter.blank c = true := hs.sqlSpace c List.mem_cons_self h.2
      rw [← hnext, h.1, pieces_concat_blank hblank, List.append_nil]
    · exact hnext

theorem pieces_collapseAfter (hs : Ascii s) :
    sqlCutter.pieces (a ++ collapseAfter false s) = sqlCutter.pieces (a ++ s) ∧
      sqlCutter.pieces (a ++ ' ' :: collapseAfter true s) = sqlCutter.pieces (a ++ ' ' :: s) := by
  induction s generalizing a with
  | nil => exact ⟨rfl, rfl⟩
  | cons c s ih =>
    by_cases hspace : isSpace c = true
    · have hblank : sqlCutter.blank c = true := hs.sqlSpace c List.mem_cons_self hspace
      have hnext := (@ih a hs.tail).2
      have hone : sqlCutter.pieces (a ++ ' ' :: s) = sqlCutter.pieces (a ++ c :: s) := by
        rw [pieces_gap sqlSpace_blank, pieces_gap hblank]
      have htwo : sqlCutter.pieces (a ++ ' ' :: s) = sqlCutter.pieces (a ++ ' ' :: c :: s) := by
        rw [pieces_gap sqlSpace_blank, pieces_gap sqlSpace_blank, pieces_cons_blank hblank]
      simp only [collapseAfter, hspace, if_true, Bool.false_eq_true, if_false]
      exact ⟨hnext.trans hone, hnext.trans htwo⟩
    · have hnext := (@ih (a ++ [c]) hs.tail).1
      have hgap := (@ih (a ++ [' ', c]) hs.tail).1
      simp only [List.append_assoc, List.cons_append, List.nil_append] at hnext hgap
      simp only [collapseAfter, hspace, if_false, Bool.false_eq_true]
      exact ⟨hnext, hgap⟩

theorem not_idChar_of_punct (h : isPunct c = true) : idChar c = false ∧ c ≠ '.' := by
  simp only [isPunct, List.contains_eq_mem, decide_eq_true_eq, List.mem_cons, List.not_mem_nil, or_false] at h
  rcases h with rfl | rfl | rfl | rfl | rfl | rfl <;> decide

theorem tighten_subset : tighten s ⊆ s := by
  induction s with
  | nil => exact List.Subset.refl _
  | cons c s ih =>
    simp only [tighten]
    split
    · split
      · exact List.subset_cons_of_subset _ ih
      · exact List.cons_subset_cons _ ih
    · split
      · exact List.cons_subset_cons _ (fun d hd => ih ((List.dropWhile_suffix _).subset hd))
      · exact List.cons_subset_cons _ ih

/-- What starts with punctuation sticks to a `!` only. -/
theorem apart_punct (ha : a.getLast? ≠ some '!') {p : Char} (hp : isPunct p = true) (hs : s.head? = some p) : sqlCutter.Apart a s := by
  intro x hx y hy
  rw [hs] at hy
  cases hy
  obtain ⟨hid, hdot⟩ := not_idChar_of_punct hp
  have hbang : x ≠ '!' := fun h => ha (h ▸ hx)
  simp [sqlCutter, glues, hid, hdot, hbang]

/-- What ends with punctuation sticks to something only if it is a `!`. -/
theorem apart_of_punct {p : Char} (hp : isPunct p = true) (hbang : p ≠ '!') : sqlCutter.Apart (a ++ [p]) s := by
  intro x hx y _
  rw [List.getLast?_concat] at hx
  cases hx
  obtain ⟨hid, hdot⟩ := not_idChar_of_punct hp
  simp [sqlCutter, glues, hid, hdot, hbang]

theorem head?_tighten (h : s.head? = some '=') : (tighten s).head? = some '=' := by
  obtain ⟨s, rfl⟩ := List.head?_eq_some_iff.mp h
  simp [tighten, show isSpace '=' = false by decide, show isPunct '=' = true by decide]

theorem pieces_tighten (hs : Ascii s) (hbangs : bangs (a ++ s) = true) :
    sqlCutter.pieces (a ++ tighten s) = sqlCutter.pieces (a ++ s) := by
  induction s generalizing a with
  | nil => rfl
  | cons c s ih =>
    have hnext := @ih (a ++ [c]) hs.tail (by simpa using hbangs)
    rw [List.append_assoc, List.append_assoc, List.singleton_append, List.singleton_append] at hnext
    have htail : Ascii (tighten s) := fun d hd => hs.tail d (tighten_subset hd)
    simp only [tighten]
    split
    · rename_i hspace
      split
      · rename_i hany
        obtain ⟨p, hhead, hp⟩ := (Option.any_eq_true _ _).mp hany
        have hlast : a.getLast? ≠ some '!' := by
          intro hlast
          obtain ⟨a', rfl⟩ := List.getLast?_eq_some_iff.mp hlast
          rw [List.append_assoc, List.singleton_append] at hbangs
          obtain rfl : c = '=' := Option.some.inj (head?_of_bangs hbangs)
          exact absurd hspace (by decide)
        have hrest := @ih [] hs.tail (bangs_cons (bangs_suffix hbangs)).2
        rw [List.nil_append, List.nil_append] at hrest
        rw [pieces_append (apart_punct hlast hp hhead), hrest, pieces_gap (hs.sqlSpace c List.mem_cons_self hspace)]
      · exact hnext
    · split
      · rename_i hpunct
        by_cases hbang : c = '!'
        · have hhead := head?_tighten ((bangs_cons (bangs_suffix hbangs)).1 hbang)
          obtain ⟨r, hr⟩ := List.head?_eq_some_iff.mp hhead
          rw [hr, List.dropWhile_cons_of_neg (by decide), ← hr]
          exact hnext
        · have happart : ∀ x, sqlCutter.pieces (a ++ c :: x) = sqlCutter.pieces (a ++ [c]) ++ sqlCutter.pieces x := by
            intro x
            rw [← List.singleton_append, ← List.append_assoc]
            exact pieces_append (apart_of_punct hpunct hbang)
          rw [← hnext, happart ((tighten s).dropWhile isSpace), happart (tighten s), pieces_dropSpace htail]
      · exact hnext

/-! The phrase between pieces -/

def Tidy (s : List Char) : Prop := ∀ p ∈ sqlCutter.pieces s, p.head? ≠ some '.' ∧ p.getLast? ≠ some '.'

/-- Then every dot stands between two characters of identifiers. -/
theorem Tidy.dot (h : Tidy (a ++ '.' :: b)) : a.getLast?.any idChar = true ∧ b.head?.any idChar = true := by
  have hdot : sqlCutter.blank '.' = false := by decide
  constructor
  · by_contra hlast
    have happart : sqlCutter.Apart a ('.' :: b) := by
      intro x hx y hy
      cases hy
      have hid : idChar x = false := by
        rw [Option.mem_def.mp hx] at hlast
        simpa using hlast
      simp [sqlCutter, glues, hid, show idChar '.' = false by decide]
    obtain ⟨p, ps, hp⟩ := @pieces_cons _ sqlCutter b '.' hdot
    refine (h ('.' :: p) ?_).1 rfl
    rw [pieces_append happart, hp]
    exact List.mem_append_right _ List.mem_cons_self
  · by_contra hhead
    have happart : sqlCutter.Apart (a ++ ['.']) b := by
      intro x hx y hy
      rw [List.getLast?_concat] at hx
      cases hx
      have hid : idChar y = false := by
        rw [Option.mem_def.mp hy] at hhead
        simpa using hhead
      simp [sqlCutter, glues, hid, show idChar '.' = false by decide]
    obtain ⟨ps, p, hp⟩ := @pieces_concat _ sqlCutter a '.' hdot
    refine (h (p ++ ['.']) ?_).2 List.getLast?_concat
    rw [← List.singleton_append, ← List.append_assoc, pieces_append happart, hp]
    simp

theorem Tidy.suffix (happart : sqlCutter.Apart a b) (h : Tidy (a ++ b)) : Tidy b := by
  intro p hp
  refine h p ?_
  rw [pieces_append happart]
  exact List.mem_append_right _ hp

/-- Nothing sticks to what ends neither a name nor in a dot or `!`. -/
theorem apart_of_last (hid : a.getLast?.any idChar = false) (hdot : a.getLast? ≠ some '.') (hbang : a.getLast? ≠ some '!') :
    sqlCutter.Apart a b := by
  intro x hx y _
  have hidx : idChar x = false := by
    rw [Option.mem_def.mp hx] at hid
    exact hid
  have hdotx : x ≠ '.' := fun h => hdot (h ▸ hx)
  have hbangx : x ≠ '!' := fun h => hbang (h ▸ hx)
  simp [sqlCutter, glues, hidx, hdotx, hbangx]

theorem lowerCase_append : lowerCase (a ++ b) = lowerCase a ++ lowerCase b := List.map_append

theorem lower_of_spells {word : List Char} (hword : ∀ l ∈ word, ∀ n < 128, matchesLetter l (Char.ofNat n) = true → (Char.ofNat n).toLower = l.toLower)
    (h : Spells word w) (hw : ∀ c ∈ w, c.toNat < 128) : lowerCase w = lowerCase word := by
  induction h with
  | nil => rfl
  | @cons l c word w hl _ ih =>
    have hc : c.toLower = l.toLower := by
      have hfact := hword l List.mem_cons_self c.toNat (hw c List.mem_cons_self)
      rw [Char.ofNat_toNat] at hfact
      exact hfact hl
    have hrest := ih (fun l hl => hword l (List.mem_cons_of_mem _ hl)) (fun c hc => hw c (List.mem_cons_of_mem _ hc))
    show c.toLower :: lowerCase w = l.toLower :: lowerCase word
    rw [hc, hrest]

theorem Ascii.lt (h : Ascii s) : ∀ c ∈ s, c.toNat < 128 := fun c hc => (h c hc).elim lt_of_printable lt_of_sqlSpace

theorem Ascii.left (h : Ascii (a ++ b)) : Ascii a := fun c hc => h c (List.mem_append_left _ hc)

theorem Ascii.right (h : Ascii (a ++ b)) : Ascii b := fun c hc => h c (List.mem_append_right _ hc)

theorem pieces_of_gap (h : Gap w) (hw : Ascii w) :
    sqlCutter.pieces (a ++ (lowerCase w ++ b)) = sqlCutter.pieces a ++ sqlCutter.pieces b := by
  obtain ⟨hne, hspace⟩ := h
  have hblank : ∀ c ∈ lowerCase w, sqlCutter.blank c = true := by
    intro c hc
    obtain ⟨d, hd, rfl⟩ := List.mem_map.mp hc
    exact hw.lowerCase.sqlSpace _ hc (by rw [isSpace_toLower]; exact hspace d hd)
  obtain ⟨c, w, rfl⟩ := List.exists_cons_of_ne_nil hne
  have hrest : ∀ d ∈ lowerCase w, sqlCutter.blank d = true := fun d hd => hblank d (List.mem_cons_of_mem _ hd)
  have hgap : sqlCutter.pieces (a ++ c.toLower :: (lowerCase w ++ b)) = sqlCutter.pieces a ++ sqlCutter.pieces (lowerCase w ++ b) :=
    pieces_gap (hblank _ List.mem_cons_self)
  rw [pieces_blanks hrest] at hgap
  exact hgap

theorem Phrase.pieces (h : Phrase p) (hp : Ascii p) :
    sqlCutter.pieces (lowerCase p) = ["if".toList, "not".toList, "exists".toList] ∧ (lowerCase p).getLast? = some 's' := by
  obtain ⟨w₁, b₁, w₂, b₂, w₃, rfl, hw₁, hb₁, hw₂, hb₂, hw₃⟩ := h
  have hif : lowerCase w₁ = "if".toList := lower_of_spells (by decide) hw₁ hp.left.lt
  have hnot : lowerCase w₂ = "not".toList := lower_of_spells (by decide) hw₂ hp.right.right.left.lt
  have hexists : lowerCase w₃ = "exists".toList := lower_of_spells (by decide) hw₃ hp.right.right.right.right.lt
  simp only [lowerCase_append, hif, hnot, hexists]
  constructor
  · rw [pieces_of_gap hb₁ hp.right.left, pieces_of_gap hb₂ hp.right.right.right.left]
    decide
  · rw [← List.append_assoc, ← List.append_assoc, ← List.append_assoc, List.getLast?_append]
    rfl

theorem Phrase.isWord_head (h : Phrase p) (hp : Ascii p) : (p ++ s).head?.any U.isWord = true := by
  obtain ⟨c, q, rfl, hI⟩ := h.head
  have hc := hp c List.mem_cons_self
  have hlt : c.toNat < 128 := hc.elim lt_of_printable lt_of_sqlSpace
  have hid := @ascii_forall c (fun c => matchesLetter 'I' c = true → idChar c.toLower = true) (by decide) hlt hI
  rw [idChar_toLower hc] at hid
  simpa using hid

theorem Removed.head?_of_edge (h : Removed U word s r) (hs : Ascii s) (hedge : s.head?.any U.isWord = false) :
    r.head? = s.head? := by
  cases h with
  | nil => rfl
  | keep => rfl
  | drop hphrase =>
    rw [hphrase.isWord_head hs.left] at hedge
    cases hedge

theorem Removed.ascii (h : Removed U word s r) (hs : Ascii s) : Ascii r := by
  induction h with
  | nil => exact hs
  | keep _ ih =>
    intro c hc
    rcases List.mem_cons.mp hc with rfl | hc
    · exact hs _ List.mem_cons_self
    · exact ih hs.tail c hc
  | drop _ _ _ ih => exact ih hs.right

/-- Taking the phrase out takes its pieces out; `a` is what stands before. -/
theorem Removed.cuts (h : Removed U word s r) (ha : word = false → a.getLast?.any idChar = false) (hs : Ascii s)
    (hbangs : bangs (a ++ lowerCase s) = true) (htidy : Tidy (a ++ lowerCase r)) :
    Cuts (sqlCutter.pieces (a ++ lowerCase s)) (sqlCutter.pieces (a ++ lowerCase r)) := by
  induction h generalizing a with
  | nil => exact Cuts.refl _
  | @keep word c s r h ih =>
    have hnext := @ih (a ++ [c.toLower]) (fun hc => by simp [@idChar_toLower U c (hs c List.mem_cons_self), hc]) hs.tail
      (by simpa [lowerCase] using hbangs) (by simpa [lowerCase] using htidy)
    simpa [lowerCase] using hnext
  | @drop word p s r hphrase hedge h ih =>
    have hid := ha rfl
    obtain ⟨hpieces, hlast⟩ := hphrase.pieces hs.left
    have hhead : (lowerCase r).head? = (lowerCase s).head? := by
      show (r.map Char.toLower).head? = (s.map Char.toLower).head?
      rw [List.head?_map, List.head?_map, h.head?_of_edge hs.right hedge]
    have hidhead : (lowerCase s).head?.any idChar = false := by
      cases s with
      | nil => rfl
      | cons c =>
        show idChar c.toLower = false
        rw [@idChar_toLower U c (hs c (List.mem_append_right _ List.mem_cons_self))]
        exact hedge
    -- a dot before the phrase would be left without a name behind it
    have hdot : a.getLast? ≠ some '.' := by
      intro hlast
      obtain ⟨a', rfl⟩ := List.getLast?_eq_some_iff.mp hlast
      rw [List.append_assoc, List.singleton_append] at htidy
      have hname := htidy.dot.2
      rw [hhead, hidhead] at hname
      cases hname
    have hbang : a.getLast? ≠ some '!' := by
      intro hlast
      obtain ⟨a', rfl⟩ := List.getLast?_eq_some_iff.mp hlast
      rw [List.append_assoc, List.singleton_append] at hbangs
      obtain ⟨c, q, rfl, hI⟩ := hphrase.head
      obtain rfl : c = '=' := (toLower_eq_iff (.inr (.inl rfl))).mp (Option.some.inj (head?_of_bangs hbangs))
      exact absurd hI (by decide)
    -- a dot behind the phrase would be left without a name before it
    have hdothead : (lowerCase s).head? ≠ some '.' := by
      intro hdothead
      rw [← hhead] at hdothead
      obtain ⟨r', hr'⟩ := List.head?_eq_some_iff.mp hdothead
      rw [hr'] at htidy
      have hname := htidy.dot.1
      rw [hid] at hname
      cases hname
    have hafter : sqlCutter.Apart (lowerCase p) (lowerCase s) := by
      intro x hx y hy
      rw [hlast] at hx
      cases hx
      have hidy : idChar y = false := by
        rw [Option.mem_def.mp hy] at hidhead
        exact hidhead
      have hdoty : y ≠ '.' := fun h => hdothead (h ▸ hy)
      simp [sqlCutter, glues, hidy, hdoty]
    have hrest := @ih [] (fun _ => rfl) hs.right (bangs_suffix (by rw [lowerCase_append, ← List.append_assoc] at hbangs; exact hbangs))
      (htidy.suffix (apart_of_last hid hdot hbang))
    rw [lowerCase_append, pieces_append (apart_of_last hid hdot hbang), pieces_append (apart_of_last hid hdot hbang),
      pieces_append hafter, hpieces]
    exact (Cuts.refl _).append (.drop hrest)

/-! The rewriting of one segment -/

/-- What `normalize_sql` does to a segment, once the phrase is out and the ends are stripped. -/
def rewritten (s : List Char) : List Char := tighten (lowerCase (collapse s))

theorem lowerCase_collapseAfter : lowerCase (collapseAfter space s) = collapseAfter space (lowerCase s) := by
  induction s generalizing space with
  | nil => rfl
  | cons c s ih =>
    show lowerCase (collapseAfter space (c :: s)) = collapseAfter space (c.toLower :: lowerCase s)
    simp only [collapseAfter, isSpace_toLower]
    split
    · split
      · exact ih
      · exact congrArg (' ' :: ·) ih
    · exact congrArg (c.toLower :: ·) ih

theorem lowerCase_rstrip : lowerCase (rstrip s) = rstrip (lowerCase s) := by
  induction s with
  | nil => rfl
  | cons c s ih =>
    show lowerCase (rstrip (c :: s)) = rstrip (c.toLower :: lowerCase s)
    simp only [rstrip, ← ih, isSpace_toLower, show (lowerCase (rstrip s) = []) = (rstrip s = []) by simp [lowerCase]]
    split
    · rfl
    · rfl

theorem lowerCase_dropSpace : lowerCase (s.dropWhile isSpace) = (lowerCase s).dropWhile isSpace := by
  rw [lowerCase, lowerCase, List.dropWhile_map]
  congr 2
  funext c
  exact isSpace_toLower.symm

theorem Ascii.collapseAfter (h : Ascii s) : Ascii (collapseAfter space s) := by
  induction s generalizing space with
  | nil => exact h
  | cons c s ih =>
    have hkeep : ∀ d x, (printable d = true ∨ Db.sqlSpace d = true) → Ascii x → Ascii (d :: x) := by
      intro d x hd hx e he
      rcases List.mem_cons.mp he with rfl | he
      · exact hd
      · exact hx e he
    simp only [Db.collapseAfter]
    split
    · split
      · exact ih h.tail
      · exact hkeep _ _ (by decide) (ih h.tail)
    · exact hkeep _ _ (h c List.mem_cons_self) (ih h.tail)

theorem pieces_rewritten (hs : Ascii s) (hbangs : bangs s = true) :
    sqlCutter.pieces (rewritten s) = sqlCutter.pieces (lowerCase s) := by
  have htighten := @pieces_tighten [] (lowerCase (collapse s)) hs.collapseAfter.lowerCase (bangs_lowerCase (bangs_collapseAfter hbangs))
  have hcollapse := (@pieces_collapseAfter [] (lowerCase s) hs.lowerCase).1
  calc sqlCutter.pieces (rewritten s) = sqlCutter.pieces (lowerCase (collapse s)) := htighten
    _ = sqlCutter.pieces (collapseAfter false (lowerCase s)) := by rw [collapse, lowerCase_collapseAfter]
    _ = sqlCutter.pieces (lowerCase s) := hcollapse

/-- A segment of a clean text and a text whose pieces are what is left of its own. -/
structure Shrinks (U : Unicode) (s n : List Char) : Prop where
  ascii : Ascii s
  bangs : bangs s = true
  left : ∃ s', Removed U false s s' ∧ sqlCutter.pieces n = sqlCutter.pieces (lowerCase s')

/-- A segment with the phrase taken out and perhaps white space at the ends. -/
structure Trimmed (U : Unicode) (s x : List Char) : Prop where
  ascii : Ascii x
  bangs : bangs x = true
  left : ∃ s', Removed U false s s' ∧ sqlCutter.pieces (lowerCase x) = sqlCutter.pieces (lowerCase s')

theorem Removed.trimmed (h : Removed U false s r) (hs : Ascii s) (hbangs : Db.bangs s = true) : Trimmed U s r :=
  ⟨h.ascii hs, bangs_of_removed h hbangs, r, h, rfl⟩

theorem Trimmed.dropSpace (h : Trimmed U s x) : Trimmed U s (x.dropWhile isSpace) := by
  obtain ⟨s', hremoved, hpieces⟩ := h.left
  refine ⟨fun c hc => h.ascii c ((List.dropWhile_suffix _).subset hc), bangs_dropSpace h.bangs, s', hremoved, ?_⟩
  rw [lowerCase_dropSpace, pieces_dropSpace h.ascii.lowerCase, hpieces]

theorem rstrip_subset : rstrip s ⊆ s := by
  induction s with
  | nil => exact List.Subset.refl _
  | cons c s ih =>
    simp only [rstrip]
    split
    · exact List.nil_subset _
    · exact List.cons_subset_cons _ ih

theorem Trimmed.rstrip (h : Trimmed U s x) : Trimmed U s (rstrip x) := by
  obtain ⟨s', hremoved, hpieces⟩ := h.left
  refine ⟨fun c hc => h.ascii c (rstrip_subset hc), bangs_rstrip h.bangs, s', hremoved, ?_⟩
  have hstrip := @pieces_rstrip [] (lowerCase x) h.ascii.lowerCase
  rw [List.nil_append, List.nil_append] at hstrip
  rw [lowerCase_rstrip, hstrip, hpieces]

theorem Trimmed.shrinks (h : Trimmed U s x) (hs : Ascii s) (hbangs : Db.bangs s = true) :
    Shrinks U s (rewritten x) := by
  obtain ⟨s', hremoved, hpieces⟩ := h.left
  exact ⟨hs, hbangs, s', hremoved, (pieces_rewritten h.ascii h.bangs).trans hpieces⟩

/-! The rewriting of a literal -/

theorem removed_plain (h : Removed U word s r) (hnone : ∀ t ∈ s.tails, eatPhrase t = none) : r = s := by
  induction h with
  | nil => rfl
  | keep _ ih => exact congrArg _ (ih (fun t ht => hnone t (by simp [List.tails, ht])))
  | @drop word p s r hphrase _ _ _ =>
    have heat := hnone (p ++ s) (by simp)
    rw [hphrase.eat] at heat
    cases heat

theorem Plain.toLower (h : Plain U l) : ∀ c ∈ l, c.toLower = c := by
  intro c hc
  by_cases hlt : c.toNat < 128
  · have hlower := (h.lower c hc).2
    rw [U.lower_ascii c hlt] at hlower
    exact (List.cons.inj hlower).1
  · exact toLower_of_le (Nat.le_of_not_lt hlt)

theorem Plain.tail (h : Plain U (c :: l)) : Plain U l :=
  ⟨fun d hd => h.lower d (List.mem_cons_of_mem _ hd), fun d hd => h.blanks d (List.mem_cons_of_mem _ hd), h.spaced.tail,
    fun t ht => h.noPhrase t (by simp [List.tails, ht])⟩

theorem Plain.next (h : Plain U (c :: l)) :
    (isSpace c = true → l.head?.any isSpace = false ∧ l.head?.any isPunct = false) ∧
      (isPunct c = true → l.head?.any isSpace = false) := by
  cases l with
  | nil => exact ⟨fun _ => ⟨rfl, rfl⟩, fun _ => rfl⟩
  | cons =>
    obtain ⟨hspace, hpunct⟩ := (List.isChain_cons_cons.mp h.spaced).1
    simp only [not_and, not_or, Bool.not_eq_true] at hspace hpunct
    exact ⟨hspace, hpunct⟩

theorem Plain.collapse (h : Plain U l) :
    Db.collapse l = l ∧ (l.head?.any isSpace = false → collapseAfter true l = l) := by
  induction l with
  | nil => exact ⟨rfl, fun _ => rfl⟩
  | cons c l ih =>
    by_cases hspace : isSpace c = true
    · have hc := h.blanks c List.mem_cons_self hspace
      have hnext := (ih h.tail).2 (h.next.1 hspace).1
      refine ⟨?_, fun hhead => ?_⟩
      · show collapseAfter false (c :: l) = c :: l
        rw [collapseAfter, if_pos hspace, if_neg Bool.false_ne_true, hnext, hc]
      · simp [hspace] at hhead
    · have hrest : collapseAfter false l = l := (ih h.tail).1
      simp [Db.collapse, collapseAfter, hspace, hrest]

theorem Plain.tighten (h : Plain U l) : Db.tighten l = l := by
  induction l with
  | nil => rfl
  | cons c l ih =>
    simp only [Db.tighten, ih h.tail]
    split
    · rename_i hspace
      rw [(h.next.1 hspace).2]
      rfl
    · split
      · rename_i hpunct
        have hhead := h.next.2 hpunct
        cases l with
        | nil => rfl
        | cons => rw [List.dropWhile_cons_of_neg (by simpa using hhead)]
      · rfl

theorem Plain.rewritten (h : Plain U l) : Db.rewritten l = l := by
  have hlower : lowerCase l = l := (List.map_congr_left h.toLower).trans (List.map_id l)
  rw [Db.rewritten, h.collapse.1, hlower, h.tighten]

/-! All segments -/

theorem segments_rewritten : ∀ {s x : List Char} {ss ss' : List (List Char)}, ss.length % 2 = 0 →
    List.Forall₂ (Removed U false) ss ss' → Trimmed U s x →
    (∀ t ∈ outside (s :: ss), Ascii t ∧ bangs t = true) → (∀ l ∈ literals (s :: ss), Plain U l) →
    literals ((rstripLast (x :: ss')).map rewritten) = literals (s :: ss) ∧
      List.Forall₂ (Shrinks U) (outside (s :: ss)) (outside ((rstripLast (x :: ss')).map rewritten))
  | s, x, [], _, _, .nil, hx, houtside, _ => by
    obtain ⟨hascii, hbangs⟩ := houtside s List.mem_cons_self
    exact ⟨rfl, .cons (hx.rstrip.shrinks hascii hbangs) .nil⟩
  | s, x, l :: t :: ss, _, hlen, .cons hl (.cons ht hss), hx, houtside, hliterals => by
    have htmem : t ∈ outside (s :: l :: t :: ss) := List.mem_cons_of_mem _ (by cases ss <;> simp [outside])
    obtain ⟨hascii, hbangs⟩ := houtside s List.mem_cons_self
    obtain ⟨hasciit, hbangst⟩ := houtside t htmem
    have hplain := hliterals l List.mem_cons_self
    obtain rfl := removed_plain hl hplain.noPhrase
    have hlen' : ss.length % 2 = 0 := by
      simp only [List.length_cons] at hlen
      omega
    obtain ⟨hrest, htokens⟩ := segments_rewritten hlen' hss (ht.trimmed hasciit hbangst)
      (fun u hu => houtside u (List.mem_cons_of_mem _ hu)) (fun m hm => hliterals m (List.mem_cons_of_mem _ hm))
    exact ⟨congrArg₂ List.cons hplain.rewritten hrest, .cons (hx.shrinks hascii hbangs) htokens⟩

/-- Outside of a capital sigma, `lower` takes the characters one by one. -/
theorem lowerText_eq (h : ∀ c ∈ s, c ≠ 'Σ' ∧ U.lower c = [c.toLower]) : U.lowerText s = lowerCase s := by
  have hafter : ∀ before, U.lowerAfter before s = lowerCase s := by
    induction s with
    | nil => exact fun _ => rfl
    | cons c s ih =>
      intro before
      obtain ⟨hsigma, hlower⟩ := h c List.mem_cons_self
      rw [Unicode.lowerAfter, if_neg hsigma, hlower, ih (fun d hd => h d (List.mem_cons_of_mem _ hd))]
      rfl
  exact hafter []

theorem Clean.lower {text : List Char} (h : Clean U text) : ∀ c ∈ text, c ≠ 'Σ' ∧ U.lower c = [c.toLower] := by
  have hascii : ∀ c : Char, c.toNat < 128 → c ≠ 'Σ' ∧ U.lower c = [c.toLower] := by
    intro c hc
    refine ⟨?_, U.lower_ascii c hc⟩
    rintro rfl
    exact absurd hc (by decide)
  intro c hc
  rcases mem_segments hc with rfl | ⟨t, ht, hct⟩
  · exact hascii _ (by decide)
  · rcases mem_outside_or_literals ht with ht | ht
    · exact hascii c ((h.ascii t ht).lt c hct)
    · obtain ⟨hsigma, hlower⟩ := (h.literals t ht).lower c hct
      rw [(h.literals t ht).toLower c hct]
      exact ⟨hsigma, hlower⟩

theorem Removed.subset (h : Removed U word s r) : r ⊆ s := by
  induction h with
  | nil => exact List.Subset.refl _
  | keep _ ih => exact List.cons_subset_cons _ ih
  | drop _ _ _ ih => exact fun c hc => List.mem_append_right _ (ih hc)

theorem mem_collapseAfter (h : c ∈ collapseAfter space s) : c = ' ' ∨ c ∈ s := by
  induction s generalizing space with
  | nil => exact .inr h
  | cons d s ih =>
    simp only [collapseAfter] at h
    split at h
    · split at h
      · exact (ih h).imp_right (List.mem_cons_of_mem _)
      · rcases List.mem_cons.mp h with rfl | h
        · exact .inl rfl
        · exact (ih h).imp_right (List.mem_cons_of_mem _)
    · rcases List.mem_cons.mp h with rfl | h
      · exact .inr List.mem_cons_self
      · exact (ih h).imp_right (List.mem_cons_of_mem _)

theorem segments_normalizeSql (h : Clean U text.toList) :
    segments (normalizeSql U (some text)) =
      (rstripLast ((segments (cut U text.toList)).modifyHead (List.dropWhile isSpace))).map rewritten := by
  have hlower : U.lowerText (collapse (strip (cut U text.toList))) = lowerCase (collapse (strip (cut U text.toList))) := by
    refine lowerText_eq (fun c hc => ?_)
    rcases mem_collapseAfter hc with rfl | hc
    · exact ⟨by decide, U.lower_ascii _ (by decide)⟩
    · exact h.lower c (removed_cut.subset ((List.dropWhile_suffix _).subset (rstrip_subset hc)))
  have hmap : segments (lowerCase (collapse (strip (cut U text.toList)))) = (segments (collapse (strip (cut U text.toList)))).map lowerCase :=
    segments_map (fun c => toLower_eq_iff (.inr (.inr rfl)))
  show segments (tighten (U.lowerText (collapse (strip (cut U text.toList))))) = _
  rw [hlower, segments_tighten, hmap, segments_collapse, strip, segments_rstrip, segments_dropSpace, List.map_map, List.map_map]
  rfl

theorem normalizeSql_clean {text : String} (h : Clean U text.toList) (hodd : (segments text.toList).length % 2 = 1) :
    literals (segments (normalizeSql U (some text))) = literals (segments text.toList) ∧
      List.Forall₂ (Shrinks U) (outside (segments text.toList)) (outside (segments (normalizeSql U (some text)))) := by
  obtain ⟨s, ss, hs⟩ := segments_split text.toList
  obtain ⟨s', ss', hcut, hremoved, hrest⟩ := removed_cut.segments hs
  have houtside : ∀ t ∈ outside (s :: ss), Ascii t ∧ bangs t = true := fun t ht =>
    ⟨h.ascii t (hs ▸ ht), h.bangs t (hs ▸ ht)⟩
  have hliterals : ∀ l ∈ literals (s :: ss), Plain U l := fun l hl => h.literals l (hs ▸ hl)
  obtain ⟨hascii, hbangs⟩ := houtside s (by cases ss <;> simp [outside])
  have hlen : ss.length % 2 = 0 := by
    rw [hs, List.length_cons] at hodd
    omega
  rw [segments_normalizeSql h, hcut, hs]
  exact segments_rewritten hlen hrest (hremoved.trimmed hascii hbangs).dropSpace houtside hliterals

/-! The contract's texts -/

def ContractSegment (s : List Char) : Prop :=
  (∀ c ∈ s, printable c = true ∨ sqlSpace c = true) ∧ bangs s = true ∧ (∀ t ∈ s.tails, eatPhrase t = none) ∧
    (∀ p ∈ sqlCutter.pieces (lowerCase s), p.head? ≠ some '.' ∧ p.getLast? ≠ some '.') ∧
    ∀ t ∈ tokens s, t ≠ ['!'] ∧ ∀ c ∈ t, printable c = true

def ContractLiteral (l : List Char) : Prop :=
  (∀ c ∈ l, c.toNat < 128 ∧ c.toLower = c) ∧ (∀ c ∈ l, isSpace c = true → c = ' ') ∧
    l.IsChain (fun a b => ¬ (isSpace a = true ∧ (isSpace b = true ∨ isPunct b = true)) ∧ ¬ (isPunct a = true ∧ isSpace b = true)) ∧
    ∀ t ∈ l.tails, eatPhrase t = none

instance : DecidablePred ContractSegment := fun _ => inferInstanceAs (Decidable (_ ∧ _))

instance : DecidablePred ContractLiteral := fun _ => inferInstanceAs (Decidable (_ ∧ _))

def ContractText (text : List Char) : Prop := (segments text).length % 2 = 1 ∧
  (∀ s ∈ outside (segments text), ContractSegment s) ∧ ∀ l ∈ literals (segments text), ContractLiteral l

instance : DecidablePred ContractText := fun _ => inferInstanceAs (Decidable (_ ∧ _))

theorem contract_texts : ∀ x ∈ objectSql, ContractText x.2.toList := by
  simp only [objectSql, triggers, indexSql, List.forall_mem_cons]
  rw [String.toList_ofList, String.toList_ofList, String.toList_ofList, String.toList_ofList, String.toList_ofList]
  decide +kernel

theorem ContractLiteral.plain {l : List Char} (h : ContractLiteral l) : Plain U l := by
  obtain ⟨hlower, hblanks, hspaced, hphrase⟩ := h
  refine ⟨fun c hc => ⟨?_, ?_⟩, hblanks, hspaced, hphrase⟩
  · rintro rfl
    exact absurd (hlower _ hc).1 (by decide)
  · rw [U.lower_ascii c (hlower c hc).1, (hlower c hc).2]

theorem contract_clean {x : String × String} (hx : x ∈ objectSql) : Clean U x.2.toList := by
  obtain ⟨-, houtside, hliterals⟩ := contract_texts x hx
  exact ⟨fun l hl => (hliterals l hl).plain, fun s hs => (houtside s hs).1, fun s hs => (houtside s hs).2.1⟩

theorem Shrinks.cuts {n : List Char} (h : Shrinks U s n) (ht : Shrinks U t n) (hcontract : ContractSegment t) :
    Cuts (tokens s) (tokens t) := by
  obtain ⟨hascii, hbangs, s', hremoved, hs⟩ := h
  obtain ⟨-, -, t', hkept, htpieces⟩ := ht
  obtain ⟨-, -, hphrase, hdots, -⟩ := hcontract
  obtain rfl := removed_plain hkept hphrase
  have hpieces : sqlCutter.pieces (lowerCase s') = sqlCutter.pieces (lowerCase t') := hs.symm.trans htpieces
  have htidy : Tidy (lowerCase s') := fun p hp => hdots p (hpieces ▸ hp)
  have hcuts := (hremoved.cuts (fun _ => rfl) hascii (a := []) (bangs_lowerCase hbangs) htidy).flatMap
  rw [List.nil_append, List.nil_append, hpieces] at hcuts
  exact hcuts

theorem length_rstripLast : ∀ ss : List (List Char), (rstripLast ss).length = ss.length
  | [] => rfl
  | [_] => rfl
  | s :: t :: ss => by
    rw [rstripLast, List.length_cons, length_rstripLast (t :: ss)]
    rfl

theorem length_segments (h : Clean U text.toList) :
    (segments (normalizeSql U (some text))).length = (segments text.toList).length := by
  obtain ⟨s, ss, hs⟩ := segments_split text.toList
  obtain ⟨s', ss', hcut, -, hrest⟩ := removed_cut.segments hs
  rw [segments_normalizeSql h, hcut, hs, List.length_map, length_rstripLast, List.length_modifyHead, List.length_cons,
    List.length_cons, hrest.length_eq]

theorem forall₂_join {γ : Type} {R : α → γ → Prop} {S : β → γ → Prop} {T : α → β → Prop}
    {cs : List γ} (h : List.Forall₂ R as cs) (h' : List.Forall₂ S bs cs) (hjoin : ∀ x, ∀ y ∈ bs, ∀ z, R x z → S y z → T x y) :
    List.Forall₂ T as bs := by
  induction h generalizing bs with
  | nil =>
    cases h'
    exact .nil
  | cons hxz _ ih =>
    cases h' with
    | cons hyz hrest =>
      exact .cons (hjoin _ _ List.mem_cons_self _ hxz hyz) (ih hrest (fun x y hy => hjoin x y (List.mem_cons_of_mem _ hy)))

theorem matches_of_clean {x : String × String} (hx : x ∈ objectSql)
    (haccepted : normalizeSql U (some text) = normalizeSql U (some x.2)) (h : Clean U text.toList) :
    Matches text.toList x.2.toList := by
  obtain ⟨hodd, houtside, -⟩ := contract_texts x hx
  have hlen : (segments text.toList).length = (segments x.2.toList).length := by
    rw [← length_segments h, haccepted, length_segments (contract_clean hx)]
  obtain ⟨hliterals, htokens⟩ := normalizeSql_clean h (hlen ▸ hodd)
  obtain ⟨hliterals', htokens'⟩ := @normalizeSql_clean U _ (contract_clean hx) hodd
  rw [haccepted] at hliterals htokens
  exact ⟨hliterals.symm.trans hliterals', forall₂_join htokens htokens' (fun s t ht n hs hn => hs.cuts hn (houtside t ht))⟩

/-! A text with the tokens of the contract is clean -/

theorem forall₂_exists {R : α → β → Prop} (h : List.Forall₂ R as bs) {x : α} (hx : x ∈ as) :
    ∃ y ∈ bs, R x y := by
  induction h with
  | nil => cases hx
  | cons hxy _ ih =>
    rcases List.mem_cons.mp hx with rfl | hx
    · exact ⟨_, List.mem_cons_self, hxy⟩
    · obtain ⟨y, hy, hR⟩ := ih hx
      exact ⟨y, List.mem_cons_of_mem _ hy, hR⟩

/-- A `!` that stands alone is a token. -/
theorem bang_token (h : bangs s = false) : ['!'] ∈ tokens s := by
  obtain ⟨a, b, rfl, hb⟩ : ∃ a b, s = a ++ '!' :: b ∧ b.head? ≠ some '=' := by
    induction s with
    | nil => cases h
    | cons c s ih =>
      by_cases hs : bangs s = false
      · obtain ⟨a, b, rfl, hb⟩ := ih hs
        exact ⟨c :: a, b, rfl, hb⟩
      · rw [Bool.not_eq_false] at hs
        by_contra hnone
        push Not at hnone
        have hgood : bangs (c :: s) = true := by
          refine bangs_of_cons (fun hc => ?_) hs
          subst hc
          exact hnone [] s rfl
        rw [hgood] at h
        cases h
  have hleft : sqlCutter.Apart (lowerCase a) (['!'] ++ lowerCase b) := by
    intro x _ y hy
    cases hy
    simp [sqlCutter, glues, show idChar '!' = false by decide]
  have hright : sqlCutter.Apart ['!'] (lowerCase b) := by
    intro x hx y hy
    cases hx
    have hy' : y ≠ '=' := by
      rintro rfl
      have hhead : (b.map Char.toLower).head? = some '=' := hy
      rw [List.head?_map, Option.map_eq_some_iff] at hhead
      obtain ⟨d, hd, hlower⟩ := hhead
      rw [(toLower_eq_iff (.inr (.inl rfl))).mp hlower] at hd
      exact hb hd
    simp [sqlCutter, glues, show idChar '!' = false by decide, hy']
  have hpieces : ['!'] ∈ sqlCutter.pieces (lowerCase (a ++ '!' :: b)) := by
    have hlower : lowerCase (a ++ '!' :: b) = lowerCase a ++ (['!'] ++ lowerCase b) := lowerCase_append
    rw [hlower, pieces_append hleft, pieces_append hright, pieces_singleton (by decide)]
    simp
  exact List.mem_flatMap.mpr ⟨['!'], hpieces, by decide⟩

theorem Matches.clean {text : List Char} {x : String × String} (hx : x ∈ objectSql) (h : Matches text x.2.toList) :
    Clean U text := by
  obtain ⟨-, houtside, hliterals⟩ := contract_texts x hx
  refine ⟨fun l hl => (hliterals l (h.literals ▸ hl)).plain, fun s hs c hc => ?_, fun s hs => ?_⟩
  · obtain ⟨t, ht, hcuts⟩ := forall₂_exists h.tokens hs
    by_contra hnot
    rw [not_or, Bool.not_eq_true, Bool.not_eq_true] at hnot
    have hsame : c.toLower = c := by
      by_cases hlt : c.toNat < 128
      · exact @ascii_forall c (fun c => printable c = false ∧ sqlSpace c = false → c.toLower = c) (by decide) hlt hnot
      · exact toLower_of_le (Nat.le_of_not_lt hlt)
    have hmem : c ∈ lowerCase s := List.mem_map.mpr ⟨c, hc, hsame⟩
    obtain ⟨u, hu, hcu⟩ := exists_token hmem hnot.2
    have hprintable : printable c = true := by
      rcases hcuts.mem hu with hu | hu
      · exact ((houtside t ht).2.2.2.2 u hu).2 c hcu
      · have hphrase : ∀ u ∈ ["if".toList, "not".toList, "exists".toList], ∀ c ∈ u, printable c = true := by decide
        exact hphrase u hu c hcu
    rw [hnot.1] at hprintable
    cases hprintable
  · obtain ⟨t, ht, hcuts⟩ := forall₂_exists h.tokens hs
    by_contra hnot
    rw [Bool.not_eq_true] at hnot
    rcases hcuts.mem (bang_token hnot) with hu | hu
    · exact ((houtside t ht).2.2.2.2 _ hu).1 rfl
    · exact absurd hu (by decide)

/-- A text that passes as one of the contract's has the contract's literals and,
the phrase aside, its tokens exactly when it is clean. -/
theorem accepted_matches_iff {text : String} {x : String × String} (hx : x ∈ objectSql)
    (haccepted : normalizeSql U (some text) = normalizeSql U (some x.2)) :
    Matches text.toList x.2.toList ↔ Clean U text.toList :=
  ⟨Matches.clean hx, matches_of_clean hx haccepted⟩

/-- The index with other white space, in other letters and with `IF NOT EXISTS`. -/
def paddedIndexSql : String :=
  "create unique index IF NOT EXISTS ux_edges_one_mainline_per_parent on Edges ( from_node_id ) where relation_type='child_of' and is_mainline = 1"

theorem accepted_matches_iff_padded : normalizeSql Unicode.ascii (some paddedIndexSql) = normalizeSql Unicode.ascii (some indexSql) ∧
    (Matches paddedIndexSql.toList indexSql.toList ↔ Clean Unicode.ascii paddedIndexSql.toList) := by
  have haccepted : normalizeSql Unicode.ascii (some paddedIndexSql) = normalizeSql Unicode.ascii (some indexSql) := by
    simp only [normalizeSql, Option.getD_some, paddedIndexSql, indexSql]
    rw [String.toList_ofList, String.toList_ofList]
    decide +kernel
  exact ⟨haccepted, accepted_matches_iff (x := ("ux_edges_one_mainline_per_parent", indexSql)) List.mem_cons_self haccepted⟩

def upperIndexSql : String :=
  "CREATE UNIQUE INDEX ux_edges_one_mainline_per_parent ON edges(from_node_id) WHERE relation_type = 'CHILD_OF' AND is_mainline = 1"

theorem upper_literal_accepted : normalizeSql Unicode.ascii (some upperIndexSql) = normalizeSql Unicode.ascii (some indexSql) ∧
    ¬ Matches upperIndexSql.toList indexSql.toList := by
  simp only [normalizeSql, Option.getD_some, upperIndexSql, indexSql]
  rw [String.toList_ofList, String.toList_ofList]
  refine ⟨by decide +kernel, fun h => ?_⟩
  exact absurd h.literals (by decide +kernel)

end GrowthMap.Db
