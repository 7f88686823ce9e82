import Mathlib.Data.List.AList
import Mathlib.Tactic.Common

/- Folders of files.

   A folder maps finitely many names to files. A rename takes whatever stood
   under the target name with it, as rename(2) does, and fails when there is
   nothing to rename. `listing` is what a scan of the folder for one kind of
   name finds. -/
namespace Folder

variable {N F : Type} [DecidableEq N]

/-- The file under a name. -/
def get (d : AList (fun _ : N => F)) (a : N) : Option F := d.lookup a

/-- Writes a file, over the one that stood there. -/
def put (a : N) (x : F) (d : AList (fun _ : N => F)) : AList (fun _ : N => F) := d.insert a x

def remove (a : N) (d : AList (fun _ : N => F)) : AList (fun _ : N => F) := d.erase a

/-- Renames `a` to `b`; nothing happens when there is no `a`. -/
def rename (a b : N) (d : AList (fun _ : N => F)) : AList (fun _ : N => F) :=
  match get d a with
  | none => d
  | some x => put b x (remove a d)

/-- What a scan of the folder for one kind of name finds. -/
def listing {κ : Type} (kind : N → Option κ) (d : AList (fun _ : N => F)) : List κ := d.keys.filterMap kind

variable {d : AList (fun _ : N => F)} {a b c : N} {x : F}

@[simp] theorem get_put_self : get (put a x d) a = some x := AList.lookup_insert d

@[simp] theorem get_put_ne (h : c ≠ a) : get (put a x d) c = get d c := AList.lookup_insert_ne h

@[simp] theorem get_remove_self : get (remove a d) a = none := AList.lookup_erase a d

@[simp] theorem get_remove_ne (h : c ≠ a) : get (remove a d) c = get d c := AList.lookup_erase_ne h

theorem get_rename_target (h : get d a = some x) : get (rename a b d) b = some x := by
  simp [rename, h]

theorem get_rename_source (hne : a ≠ b) : get (rename a b d) a = none := by
  cases h : get d a with
  | none => simpa [rename, h] using h
  | some => simp [rename, h, hne]

theorem get_rename_ne (ha : c ≠ a) (hb : c ≠ b) : get (rename a b d) c = get d c := by
  cases h : get d a with
  | none => simp [rename, h]
  | some => simp [rename, h, ha, hb]

section Listing

variable {κ : Type} {kind : N → Option κ}

theorem filterMap_erase_none {l : List N} (h : kind a = none) : (l.erase a).filterMap kind = l.filterMap kind := by
  induction l with
  | nil => rfl
  | cons y l ih =>
    by_cases hy : y = a
    · subst hy
      simp [h]
    · have hne : (y == a) = false := by simpa using hy
      simp only [List.erase_cons, hne, Bool.false_eq_true, if_false, List.filterMap_cons, ih]

theorem listing_put (h : kind a = none) : listing kind (put a x d) = listing kind d := by
  simp only [listing, put, AList.keys_insert, List.filterMap_cons, h, filterMap_erase_none h]

theorem listing_remove (h : kind a = none) : listing kind (remove a d) = listing kind d := by
  simp only [listing, remove, AList.keys_erase, filterMap_erase_none h]

variable {k : κ}

theorem listing_put_fresh (hk : kind a = some k) (h : get d a = none) :
    listing kind (put a x d) = k :: listing kind d := by
  have ha : a ∉ d.keys := by
    rw [← AList.mem_keys]
    exact AList.lookup_eq_none.mp h
  simp only [listing, put, AList.keys_insert, List.filterMap_cons, hk, List.erase_of_not_mem ha]

theorem get_of_listing_nil (hk : kind a = some k) (h : listing kind d = []) : get d a = none := by
  refine AList.lookup_eq_none.mpr ?_
  intro hmem
  have hin : k ∈ listing kind d := List.mem_filterMap.mpr ⟨a, AList.mem_keys.mp hmem, hk⟩
  rw [h] at hin
  cases hin

theorem listing_remove_last (hk : kind a = some k) (hx : get d a = some x) (h : listing kind d = [k]) :
    listing kind (remove a d) = [] := by
  have hmem : a ∈ d.keys := by
    rw [← AList.mem_keys, ← AList.lookup_isSome]
    exact Option.isSome_of_eq_some hx
  have hperm := (List.perm_cons_erase hmem).filterMap kind
  rw [List.filterMap_cons_some hk, show d.keys.filterMap kind = [k] from h] at hperm
  have hlen := hperm.length_eq
  simp only [List.length_cons, List.length_nil] at hlen
  refine List.length_eq_zero_iff.mp ?_
  simp only [listing, remove, AList.keys_erase]
  omega

end Listing

end Folder
