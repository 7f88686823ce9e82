import Mathlib.Data.List.Forall2
import Mathlib.Data.List.Induction
import Mathlib.Data.List.Nodup
import Mathlib.Data.Set.Function

/- Hash chains over any entries, digests and messages.

   An entry stores the digest of a message made of the digest before it and of its own
   fields; a log is linked when recomputing the digests from the start value gives the
   stored ones. A linked log is determined, message by message, by the digest it ends in
   (`same_of_tip`): two linked logs that end in one digest are unwound together from
   their last entries, each step by collision freedom and by reading the earlier digest
   back off the message. So a linked log that ends in a digest of another is that one's
   prefix (`prefix_of_tip`), and no digest repeats (`stored_nodup`). -/
namespace HashChain

structure Scheme (E D M : Type*) where
  hash : M → D
  /-- the message of an entry after a digest -/
  message : D → E → M
  stored : E → D
  start : D

variable {E D M : Type*} (c : Scheme E D M)

/-- The stored digests are the recomputed ones. -/
def Scheme.Linked (c : Scheme E D M) : D → List E → Prop
  | _, [] => True
  | prev, e :: es => c.hash (c.message prev e) = c.stored e ∧ Linked c (c.stored e) es

/-- The digest a log ends in. -/
def Scheme.tip (prev : D) (es : List E) : D := es.foldl (fun _ e => c.stored e) prev

/-- The messages a check of the log hashes. -/
def Scheme.messages (c : Scheme E D M) : D → List E → List M
  | _, [] => []
  | prev, e :: es => c.message prev e :: messages c (c.stored e) es

/-- No two of the messages collide, and none has the start value for its digest. -/
structure Scheme.Resists (S : Set M) : Prop where
  injOn : S.InjOn c.hash
  start : ∀ m ∈ S, c.hash m ≠ c.start

/-- A digest can be read back off a message it stands in front of. -/
structure Scheme.Readable (Clean : D → Prop) : Prop where
  start : Clean c.start
  hash : ∀ m, Clean (c.hash m)
  read : ∀ p p' e e', Clean p → Clean p' → c.message p e = c.message p' e' → p = p'

/-- Two entries of one digest that stand for the same message. -/
def Scheme.Same (e e' : E) : Prop :=
  c.stored e = c.stored e' ∧ ∃ p, c.message p e = c.message p e'

variable {c}

@[simp] theorem tip_nil (prev : D) : c.tip prev [] = prev := rfl

@[simp] theorem tip_snoc (prev : D) (es : List E) (e : E) : c.tip prev (es ++ [e]) = c.stored e := by
  simp [Scheme.tip]

variable {es fs : List E}

theorem linked_append {prev : D} :
    c.Linked prev (es ++ fs) ↔ c.Linked prev es ∧ c.Linked (c.tip prev es) fs := by
  induction es generalizing prev with
  | nil => simp [Scheme.Linked]
  | cons e es ih =>
    simp only [List.cons_append, Scheme.Linked, ih, and_assoc]
    rfl

theorem linked_snoc {prev : D} {e : E} :
    c.Linked prev (es ++ [e]) ↔
      c.Linked prev es ∧ c.hash (c.message (c.tip prev es) e) = c.stored e := by
  simp [linked_append, Scheme.Linked]

theorem messages_append (prev : D) (es fs : List E) :
    c.messages prev (es ++ fs) = c.messages prev es ++ c.messages (c.tip prev es) fs := by
  induction es generalizing prev with
  | nil => rfl
  | cons e es ih =>
    simp only [List.cons_append, Scheme.messages, ih]
    rfl

theorem tip_clean {Clean : D → Prop} (hr : c.Readable Clean)
    (h : c.Linked c.start es) : Clean (c.tip c.start es) := by
  rcases List.eq_nil_or_concat es with rfl | ⟨es, e, rfl⟩
  · exact hr.start
  · rw [List.concat_eq_append] at h ⊢
    rw [tip_snoc, ← (linked_snoc.mp h).2]
    exact hr.hash _

section

variable {Clean : D → Prop} (hr : c.Readable Clean) {S : Set M} (hS : c.Resists S)
include hr hS

/-- A linked log is determined by the digest it ends in. -/
theorem same_of_tip (he : c.Linked c.start es) (hf : c.Linked c.start fs)
    (hes : ∀ m ∈ c.messages c.start es, m ∈ S) (hfs : ∀ m ∈ c.messages c.start fs, m ∈ S)
    (h : c.tip c.start es = c.tip c.start fs) : List.Forall₂ c.Same es fs := by
  induction es using List.reverseRec generalizing fs with
  | nil =>
    rcases List.eq_nil_or_concat fs with rfl | ⟨fs, f, rfl⟩
    · exact .nil
    · -- the start value would be a digest
      rw [List.concat_eq_append] at hf hfs h
      rw [tip_nil, tip_snoc, ← (linked_snoc.mp hf).2] at h
      refine absurd h.symm (hS.start _ (hfs _ ?_))
      simp [messages_append, Scheme.messages]
  | append_singleton es e ih =>
    obtain ⟨hes', hl⟩ := linked_snoc.mp he
    have hmem : c.message (c.tip c.start es) e ∈ S := hes _ (by simp [messages_append, Scheme.messages])
    rcases List.eq_nil_or_concat fs with rfl | ⟨fs, f, rfl⟩
    · rw [tip_nil, tip_snoc, ← hl] at h
      exact absurd h (hS.start _ hmem)
    · rw [List.concat_eq_append] at hf hfs h ⊢
      obtain ⟨hfs', hl'⟩ := linked_snoc.mp hf
      rw [tip_snoc, tip_snoc] at h
      have hmem' : c.message (c.tip c.start fs) f ∈ S :=
        hfs _ (by simp [messages_append, Scheme.messages])
      have hmsg : c.message (c.tip c.start es) e = c.message (c.tip c.start fs) f :=
        hS.injOn hmem hmem' (by rw [hl, hl', h])
      have htip : c.tip c.start es = c.tip c.start fs :=
        hr.read _ _ _ _ (tip_clean hr hes') (tip_clean hr hfs') hmsg
      refine List.rel_append (ih hes' hfs' ?_ ?_ htip) (.cons ⟨h, c.tip c.start es, ?_⟩ .nil)
      · exact fun m hm => hes m (by rw [messages_append]; exact List.mem_append_left _ hm)
      · exact fun m hm => hfs m (by rw [messages_append]; exact List.mem_append_left _ hm)
      · rw [hmsg, htip]

theorem prefix_of_tip (he : c.Linked c.start es) (hf : c.Linked c.start fs)
    (hes : ∀ m ∈ c.messages c.start es, m ∈ S) (hfs : ∀ m ∈ c.messages c.start fs, m ∈ S)
    (h : c.tip c.start es ∈ fs.map c.stored) : ∃ ps, ps <+: fs ∧ List.Forall₂ c.Same es ps := by
  obtain ⟨f, hmem, hf'⟩ := List.mem_map.mp h
  obtain ⟨as, bs, rfl⟩ := List.append_of_mem hmem
  have hsplit : as ++ f :: bs = (as ++ [f]) ++ bs := by simp
  rw [hsplit] at hf hfs ⊢
  refine ⟨as ++ [f], List.prefix_append _ _, ?_⟩
  refine same_of_tip hr hS he (linked_append.mp hf).1 hes ?_ ?_
  · exact fun m hm => hfs m (by rw [messages_append]; exact List.mem_append_left _ hm)
  · rw [tip_snoc, hf']

theorem stored_nodup (he : c.Linked c.start es)
    (hes : ∀ m ∈ c.messages c.start es, m ∈ S) : (es.map c.stored).Nodup := by
  induction es using List.reverseRec with
  | nil => exact List.nodup_nil
  | append_singleton es e ih =>
    obtain ⟨hl, -⟩ := linked_snoc.mp he
    have hes' : ∀ m ∈ c.messages c.start es, m ∈ S :=
      fun m hm => hes m (by rw [messages_append]; exact List.mem_append_left _ hm)
    have hnew : c.stored e ∉ es.map c.stored := by
      intro hold
      obtain ⟨ps, hps, hsame⟩ := prefix_of_tip hr hS he hl hes hes' (by rwa [tip_snoc])
      have hlen := hsame.length_eq
      have hle := hps.length_le
      rw [List.length_append, List.length_singleton] at hlen
      omega
    rw [List.map_append]
    exact List.nodup_append.mpr ⟨ih hl hes', List.nodup_singleton _, by
      intro d hd d' hd' heq
      rw [List.map_singleton, List.mem_singleton] at hd'
      exact hnew (by rwa [← hd', ← heq])⟩

end

end HashChain
