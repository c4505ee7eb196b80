import FlashLink.Fault

/-!
Limits of the loader and of the extension manager.
-/

namespace FlashLink

structure LoaderConfig where
  /-- Bytes of a section held in RAM at a time. -/
  chunkSize : Nat
  /-- Relocation entries read at a time. -/
  batchSize : Nat
  cacheSlots : Nat
  maxSections : Nat
  /-- Longest part of the symbol names that is kept. -/
  maxStrings : Nat
  /-- Longest part of the section names that is kept. -/
  maxNames : Nat
  /-- Whether unsupported relocations are errors. -/
  strict : Bool
deriving DecidableEq

namespace LoaderConfig

def default : LoaderConfig := ⟨4096, 64, 16, 32, 4096, 512, false⟩

def fault? (c : LoaderConfig) : Option UsageFault :=
  if c.chunkSize < 16 ∨ c.chunkSize % 4 ≠ 0 then some (.chunkSize c.chunkSize)
  else if c.batchSize = 0 ∨ c.cacheSlots = 0 then some .emptyBuffers
  else if c.maxSections = 0 then some .noSectionLimit
  else none

end LoaderConfig

structure ManagerConfig where
  /-- Directory that holds one directory per extension. -/
  baseDir : String
  /-- Name of the module file in the directory of an extension. -/
  moduleFile : String
  /-- Name of the manifest in the directory of an extension. -/
  manifestFile : String
  /-- Entry symbol of modules whose manifest names none. -/
  entrySymbol : String
  maxExtensions : Nat
  /-- Longest identifier, in bytes. -/
  maxIdLen : Nat
deriving DecidableEq

namespace ManagerConfig

def default : ManagerConfig :=
  { baseDir := "/lvgl_lfs/apps", moduleFile := "app.llext", manifestFile := "manifest.json",
    entrySymbol := "app_entry", maxExtensions := 10, maxIdLen := 32 }

end ManagerConfig

end FlashLink
