import Mathlib.Algebra.GroupWithZero.Nat
import GrowthMap.Lib.PosixPath

/- The static file route (main.py, `serve_spa`).

   A request's path is looked up below the static directory: as it stands, then with
   `.html` behind it, and where neither is a file the index page is returned. The first
   two are resolved and let through when their text starts with the text of the resolved
   directory. That is more than lying in it: a sibling `out-backup` of `out` passes too
   (`sibling_served`). `serve_contained_iff` says when nothing outside is returned. -/
namespace GrowthMap.StaticFiles

open PosixPath

/-- What the route answers: a file, by its resolved path; 403; `not found`; or an error
that was raised. -/
inductive Response where
  | file (path : Path)
  | forbidden
  | notFound
  | failed
  deriving DecidableEq

/-- `ENAMETOOLONG`: a name over 255 bytes, or a path over 4095. -/
def tooLong (p : Path) : Bool :=
  p.any (fun n => decide (255 < (n.text.map Char.utf8Size).sum)) || decide (4095 < (p.text.map Char.utf8Size).sum)

/-- `is_file()`, which raises what is not about a missing entry. -/
def isFile (t : Tree) (p : Path) : Option Bool := if tooLong p then none else some (decide (p ∈ t.files))

/-- Where a process runs, and `STATIC_DIR` as it is configured. -/
structure Site where
  cwd : Path
  staticDir : Text

variable (t : Tree) (site : Site)

/-- `STATIC_DIR.resolve()` -/
def Site.dir : Option Path :=
  t.resolve (if isAbsolute site.staticDir then [] else site.cwd) (segments site.staticDir)

/-- `(STATIC_DIR / path).resolve()`: a path that starts with a slash replaces the directory. -/
def Site.below (path : Text) : Option Path :=
  if isAbsolute path then t.resolve [] (segments path)
  else t.resolve (if isAbsolute site.staticDir then [] else site.cwd) (segments site.staticDir ++ segments path)

def html : Text := ['.', 'h', 't', 'm', 'l']

def index : Text := ['i', 'n', 'd', 'e', 'x', '.', 'h', 't', 'm', 'l']

/-- `index.exists()`, and the file that `FileResponse` opens. A loop of links is no file,
and a directory is refused when the response is sent. -/
def serveIndex : Response :=
  match site.below t index with
  | none => .notFound
  | some page => if page ∈ t.files then .file page else if page ∈ t.dirs then .failed else .notFound

/-- The path with `.html` behind it, and the index page after it. -/
def serveHtml (dir : Path) (path : Text) : Response :=
  match site.below t (path ++ html) with
  | none => .failed
  | some htmlPath =>
    if dir.text.isPrefixOf htmlPath.text then
      match isFile t htmlPath with
      | none => .failed
      | some true => .file htmlPath
      | some false => serveIndex t site
    else serveIndex t site

/-- `serve_spa`; a loop of links and a zero character are errors. -/
def serveSpa (path : Text) : Response :=
  if Char.ofNat 0 ∈ path then .failed
  else match site.below t path, site.dir t with
    | some filePath, some dir =>
      if dir.text.isPrefixOf filePath.text then
        match isFile t filePath with
        | none => .failed
        | some true => .file filePath
        | some false => serveHtml t site dir path
      else .forbidden
    | _, _ => .failed

/-! What is returned -/

/-- Every file that is returned for the path lies in the static directory. -/
def Contained (path : Text) : Prop :=
  ∀ dir, site.dir t = some dir → ∀ file, serveSpa t site path = .file file → Inside dir file

/-- The check of the code, in terms of names. -/
def LetThrough (dir p : Path) : Prop := Inside dir p ∨ Beside dir p

theorem letThrough_iff {dir p : Path} : dir.text.isPrefixOf p.text = true ↔ LetThrough dir p := by
  rw [List.isPrefixOf_iff_prefix, textPrefix_iff, LetThrough]

/-- A file below a sibling whose name starts with the directory's. -/
def Stray (dir p : Path) : Prop := isFile t p = some true ∧ Beside dir p

/-- Where the index page is returned, it is a file of the directory, not a link out of it. -/
def IndexInside (dir : Path) : Prop := ∀ page, site.below t index = some page → page ∈ t.files → Inside dir page

/-- The path with `.html` is no stray file, and where it is no file of the directory the
index page is one. -/
def HtmlInside (dir : Path) (path : Text) : Prop :=
  ∀ htmlPath, site.below t (path ++ html) = some htmlPath → ¬ Stray t dir htmlPath ∧
    (¬ LetThrough dir htmlPath ∨ isFile t htmlPath = some false → IndexInside t site dir)

/-- The path is no stray file, nor, where it is let through and no file, what comes after. -/
def KeepsInside (path : Text) : Prop :=
  ∀ dir, site.dir t = some dir → ∀ filePath, site.below t path = some filePath → Char.ofNat 0 ∉ path →
    ¬ Stray t dir filePath ∧
    (LetThrough dir filePath → isFile t filePath = some false → HtmlInside t site dir path)

variable {t site} {path : Text} {dir filePath htmlPath file : Path}

theorem serveIndex_file (h : serveIndex t site = .file file) : site.below t index = some file ∧ file ∈ t.files := by
  unfold serveIndex at h
  split at h
  · cases h
  · rename_i page hpage
    split at h
    · cases h
      exact ⟨hpage, ‹_›⟩
    · split at h <;> cases h

theorem serveIndex_of_file (hbelow : site.below t index = some file) (hfile : file ∈ t.files) :
    serveIndex t site = .file file := by
  simp [serveIndex, hbelow, hfile]

theorem indexInside_iff : IndexInside t site dir ↔ ∀ file, serveIndex t site = .file file → Inside dir file := by
  constructor
  · intro h file hserve
    obtain ⟨hbelow, hfile⟩ := serveIndex_file hserve
    exact h file hbelow hfile
  · intro h page hbelow hfile
    exact h page (serveIndex_of_file hbelow hfile)

theorem inside_iff (h : LetThrough dir file) : Inside dir file ↔ ¬ Beside dir file :=
  ⟨fun hinside hbeside => hbeside.not_inside hinside, h.resolve_right⟩

theorem htmlInside_iff : HtmlInside t site dir path ↔ ∀ file, serveHtml t site dir path = .file file → Inside dir file := by
  unfold HtmlInside serveHtml
  cases hbelow : site.below t (path ++ html) with
  | none => simp
  | some htmlPath =>
    simp only [Option.some.injEq, forall_eq', indexInside_iff]
    by_cases hthrough : LetThrough dir htmlPath
    · simp only [letThrough_iff.mpr hthrough, if_true, hthrough, not_true_eq_false, false_or]
      cases hfile : isFile t htmlPath with
      | none => simp [Stray, hfile]
      | some found =>
        cases found with
        | true => simp [Stray, hfile, inside_iff hthrough]
        | false => simp [Stray, hfile]
    · have hbeside : ¬ Beside dir htmlPath := fun h => hthrough (.inr h)
      have hprefix : ¬ dir.text.isPrefixOf htmlPath.text = true := fun h => hthrough (letThrough_iff.mp h)
      simp [hthrough, hprefix, Stray, hbeside]

/-- Nothing outside the static directory is returned for a path exactly when the path,
and what is tried after it, are no files of a sibling whose name starts with its name, and
the index page, where it is reached, is no link out. -/
theorem serve_contained_iff (t : Tree) (site : Site) (path : Text) : Contained t site path ↔ KeepsInside t site path := by
  unfold Contained KeepsInside serveSpa
  cases hdir : site.dir t with
  | none => simp
  | some dir =>
    cases hbelow : site.below t path with
    | none => simp
    | some filePath =>
      by_cases hzero : Char.ofNat 0 ∈ path
      · simp [hzero]
      · simp only [hzero, if_false, not_false_eq_true, true_implies, Option.some.injEq, forall_eq', htmlInside_iff]
        by_cases hthrough : LetThrough dir filePath
        · simp only [letThrough_iff.mpr hthrough, if_true, hthrough, true_implies]
          cases hfile : isFile t filePath with
          | none => simp [Stray, hfile]
          | some found =>
            cases found with
            | true => simp [Stray, hfile, inside_iff hthrough]
            | false => simp [Stray, hfile]
        · have hbeside : ¬ Beside dir filePath := fun h => hthrough (.inr h)
          have hprefix : ¬ dir.text.isPrefixOf filePath.text = true := fun h => hthrough (letThrough_iff.mp h)
          simp [hthrough, hprefix, Stray, hbeside]

/-! A sibling that is served -/

namespace Backup

def at_ (text : String) : Path :=
  (segments text.toList).filterMap (fun s => match s with | .down n => some n | _ => none)

/-- A site with a copy of an earlier build, and a page, beside the static directory. -/
def tree : Tree where
  files := [at_ "/srv/out/index.html", at_ "/srv/out-backup/notes", at_ "/srv/out.html"]
  dirs := [[], at_ "/srv", at_ "/srv/out", at_ "/srv/out-backup"]
  links := []

def host : Site := ⟨at_ "/srv", "/srv/out".toList⟩

theorem served : serveSpa tree host "../out-backup/notes".toList = .file (at_ "/srv/out-backup/notes") := by
  decide +kernel

theorem page_served : serveSpa tree host "../out".toList = .file (at_ "/srv/out.html") := by
  decide +kernel

end Backup

/-- `/../out-backup/notes` is served from beside the static directory, and `/../out` as
`out.html` beside it. -/
theorem sibling_served :
    ¬ (∀ (t : Tree) (site : Site) (path : Text), Contained t site path) ∧
      ¬ Contained Backup.tree Backup.host "../out-backup/notes".toList ∧ ¬ Contained Backup.tree Backup.host "../out".toList := by
  have hdir : Backup.host.dir Backup.tree = some (Backup.at_ "/srv/out") := by decide +kernel
  have hnotes : ¬ Contained Backup.tree Backup.host "../out-backup/notes".toList := by
    intro h
    have hinside := h _ hdir _ Backup.served
    exact absurd hinside (by decide +kernel)
  have hpage : ¬ Contained Backup.tree Backup.host "../out".toList := by
    intro h
    have hinside := h _ hdir _ Backup.page_served
    exact absurd hinside (by decide +kernel)
  exact ⟨fun h => hnotes (h _ _ _), hnotes, hpage⟩

end GrowthMap.StaticFiles
