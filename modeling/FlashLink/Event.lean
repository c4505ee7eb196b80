import FlashLink.Elf.Section
import FlashLink.Fault

/-!
What is worth telling while modules are loaded: one constructor per kind of event, each with a
severity and one line of text.
-/

namespace FlashLink

open Text

inductive Severity where
  | error
  | warn
  | info
  | debug
  | trace
deriving DecidableEq

namespace Severity

def rank : Severity → Nat
  | error => 0
  | warn => 1
  | info => 2
  | debug => 3
  | trace => 4

def label : Severity → String
  | error => "ERROR"
  | warn => "WARN"
  | info => "INFO"
  | debug => "DEBUG"
  | trace => "TRACE"

end Severity

inductive Event where
  | regionCreated (region : String) (base : Addr) (size sector : Nat)
  | regionReserved (region : String) (len offset : Nat)
  | regionReset (region : String)
  | poolReserved (len offset : Nat)
  | rolledBack (xip iflash pool : Nat)
  | contextReset
  | trampolineSector (addr : Addr)
  | trampolineMade (addr base target : Addr)
  | relocationSkipped (type : UInt32) (offset : Nat)
  | symbolResolved (name : String) (addr : Addr)
  | tableTruncated (size limit : Nat)
  | objectParsed (name : String) (sections : Nat)
  | sectionParsed (index : Nat) (name : String) (cls : SectionClass) (size align rels : Nat)
  | chunkShortened (fromEnd toEnd : Nat)
  | sectionStreamed (name : String) (addr : Addr) (size chunks patched : Nat)
  | blockPlaced (size : Nat) (addr : Addr)
  | dataPlaced (name : String) (addr : Addr) (size patched : Nat)
  | bssCleared (size : Nat) (addr : Addr)
  | moduleLoaded (name : String) (flash patched skipped : Nat) (entry got : Addr)
  | cacheUsed (hits misses : Nat)
  | sectionCopied (name : String) (size : Nat) (xip iflash : Addr)
  | noDataRegion
  | wordPatched (index : Nat) (word trampoline target : Addr)
  | nothingResident (name : String)
  | residencyDone (name : String) (sections pointers trampolines : Nat)
  | directoriesFound (count : Nat)
  | skippedInvalid (why : Error)
  | skippedLimit (id : String) (limit : Nat)
  | skippedEmpty (id : String)
  | loadFailed (id : String) (why : Error)
  | initDone (loaded failed skipped : Nat)
  | staysResident (id : String)
  | residencyFailed (id : String) (why : Error)
  | registered (id name capabilities : String)
  | lifecycle (id event : String) (func : Addr)
deriving DecidableEq

namespace Event

def severity : Event → Severity
  | loadFailed .. => .error
  | relocationSkipped .. | tableTruncated .. | noDataRegion | skippedInvalid .. | skippedLimit ..
  | staysResident .. | residencyFailed .. => .warn
  | contextReset | moduleLoaded .. | sectionCopied .. | residencyDone .. | directoriesFound ..
  | initDone .. | registered .. => .info
  | regionReserved .. | poolReserved .. | trampolineMade .. | symbolResolved .. | chunkShortened ..
  | blockPlaced .. | cacheUsed .. => .trace
  | _ => .debug

def text : Event → String
  | regionCreated r base size sector =>
    "[" ++ r ++ "] region at " ++ address base ++ ", " ++ hex size ++ " bytes, sector " ++ hex sector
  | regionReserved r len offset =>
    "[" ++ r ++ "] alloc " ++ hex len ++ " bytes at offset " ++ hex offset
  | regionReset r => "[" ++ r ++ "] reset"
  | poolReserved len offset => "[pool] alloc " ++ hex len ++ " bytes at offset " ++ hex offset
  | rolledBack x i p =>
    "[context] rollback to xip " ++ hex x ++ ", iflash " ++ hex i ++ ", pool " ++ hex p
  | contextReset => "[context] full reset"
  | trampolineSector a => "[trampoline] new sector at " ++ address a
  | trampolineMade a base target =>
    "[trampoline] " ++ address a ++ ": r9 = " ++ address base ++ ", jump " ++ address target
  | relocationSkipped t offset =>
    "[reloc] skipping " ++ Relocation.typeName t ++ " (" ++ toString t.toNat ++ ") at offset " ++
      hex offset
  | symbolResolved name a => "[resolve] " ++ name ++ " -> " ++ address a
  | tableTruncated size limit =>
    "[parse] string table of " ++ hex size ++ " bytes truncated to " ++ hex limit
  | objectParsed name n => "[parse] " ++ name ++ ": " ++ toString n ++ " sections"
  | sectionParsed i name cls size align rels =>
    "[parse]   [" ++ padLeft 2 (toString i) ++ "] " ++ padRight 20 name ++ " " ++ cls.name ++
      " size " ++ hex size ++ " align " ++ toString align ++ " rels " ++ toString rels
  | chunkShortened a b => "[stream] chunk end " ++ hex a ++ " -> " ++ hex b
  | sectionStreamed name a size chunks n =>
    "[stream] " ++ name ++ " -> " ++ address a ++ ": " ++ hex size ++ " bytes in " ++
      toString chunks ++ " chunks, " ++ toString n ++ " relocations"
  | blockPlaced size a => "[data] block of " ++ hex size ++ " bytes at " ++ address a
  | dataPlaced name a size n =>
    "[data] " ++ name ++ " -> " ++ address a ++ ": " ++ hex size ++ " bytes, " ++ toString n ++
      " relocations"
  | bssCleared size a => "[data] bss " ++ hex size ++ " bytes at " ++ address a
  | moduleLoaded name flash n skipped entry got =>
    "[load] " ++ name ++ ": " ++ toString flash ++ " flash bytes, " ++ toString n ++
      " relocations (" ++ toString skipped ++ " skipped), entry " ++ address entry ++ ", got " ++
      address got
  | cacheUsed hits misses =>
    "[load] symbol cache: " ++ toString hits ++ " hits, " ++ toString misses ++ " misses"
  | sectionCopied name size x i =>
    "[residency] " ++ name ++ ": " ++ hex size ++ " bytes " ++ address x ++ " -> " ++ address i
  | noDataRegion => "[residency] no data region, nothing to patch"
  | wordPatched i word t target =>
    "[residency] data[" ++ toString i ++ "] " ++ address word ++ " -> trampoline " ++ address t ++
      " -> " ++ address target
  | nothingResident name => "[residency] " ++ name ++ ": no .text.iflash sections"
  | residencyDone name s p t =>
    "[residency] " ++ name ++ ": " ++ toString s ++ " sections, " ++ toString p ++
      " pointers patched, " ++ toString t ++ " trampolines"
  | directoriesFound n => "[manager] " ++ toString n ++ " extension directories"
  | skippedInvalid why => "[manager] skipping: " ++ why.message
  | skippedLimit id limit =>
    "[manager] skipping " ++ id ++ ": limit of " ++ toString limit ++ " extensions"
  | skippedEmpty id => "[manager] " ++ id ++ ": no module file"
  | loadFailed id why => "[manager] " ++ id ++ ": " ++ why.message
  | initDone l f s =>
    "[manager] init done: " ++ toString l ++ " loaded, " ++ toString f ++ " failed, " ++
      toString s ++ " skipped"
  | staysResident id => "[manager] " ++ id ++ " stays resident until reset"
  | residencyFailed id why =>
    "[manager] " ++ id ++ ": residency failed, resident code needs XIP: " ++ why.message
  | registered id name caps => "[manager] " ++ id ++ ": registered '" ++ name ++ "' (" ++ caps ++ ")"
  | lifecycle id event func => "[manager] " ++ id ++ ": " ++ event ++ " -> " ++ address func

/-- The line a log shows. -/
def line (e : Event) : String := e.severity.label ++ " " ++ e.text

end Event

end FlashLink
