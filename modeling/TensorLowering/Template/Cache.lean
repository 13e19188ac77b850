import TensorLowering.Template.Render

/-! # Templates that have been read

A cache keeps what reading a source gave, so that no source is read twice. What it holds for a
source can only come from reading that source, so an answer does not depend on what was read
before (`TensorLowering.TemplateCache.map_fst_read`).
-/

namespace TensorLowering

/-- The sources that have been read, each with what reading it gave. -/
structure TemplateCache where
  entries : Dict Parsed
  faithful : ∀ source parsed, entries.find? source = some parsed →
    Template.parse source = .ok parsed
  deriving DecidableEq

namespace TemplateCache

/-- The cache before anything has been read. -/
def empty : TemplateCache := ⟨.empty, fun _ _ held => nomatch held⟩

instance : Inhabited TemplateCache := ⟨empty⟩

/-- The sources that have been read. -/
def keys (cache : TemplateCache) : List String := cache.entries.keys

/-- Keep what reading a source gave. -/
def insert (cache : TemplateCache) (source : String) (parsed : Parsed)
    (reads : Template.parse source = .ok parsed) : TemplateCache where
  entries := cache.entries.insert source parsed
  faithful other held known := by
    rw [Dict.find?_insert] at known
    split at known
    · next same =>
        cases known
        exact same ▸ reads
    · exact cache.faithful other held known

/-- Read a source unless it has been read before. -/
def read (cache : TemplateCache) (source : String) :
    Except TemplateFault (Parsed × TemplateCache) :=
  match cache.entries.find? source with
  | some parsed => .ok (parsed, cache)
  | none =>
      match reads : Template.parse source with
      | .ok parsed => .ok (parsed, cache.insert source parsed reads)
      | .error fault => .error fault

/-- A cache answers what reading the source gives. -/
theorem map_fst_read (cache : TemplateCache) (source : String) :
    (cache.read source).map Prod.fst = Template.parse source := by
  cases held : cache.entries.find? source with
  | some parsed =>
      rw [read, held]
      exact (cache.faithful source parsed held).symm
  | none =>
      simp only [read, held]
      split
      · next parsed reads => exact reads.symm
      · next fault fails => exact fails.symm

end TemplateCache

end TensorLowering
