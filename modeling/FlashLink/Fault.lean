import FlashLink.Elf.Relocation
import FlashLink.Text.Quoted

/-!
Everything that can go wrong, by cause. `Error.message` is the only place where a failure is put
into words.
-/

namespace FlashLink

open Text

/-- Why the operating system refused a file operation. -/
inductive FileFault where
  | notFound
  | alreadyThere
  | notDirectory
  | isDirectory
  | invalidArgument
  | nameTooLong
  | notEmpty
  | zeroInName
  /-- The file ended before the buffer was full. -/
  | short
deriving DecidableEq

namespace FileFault

def message : FileFault → String
  | notFound => "No such file or directory (os error 2)"
  | alreadyThere => "File exists (os error 17)"
  | notDirectory => "Not a directory (os error 20)"
  | isDirectory => "Is a directory (os error 21)"
  | invalidArgument => "Invalid argument (os error 22)"
  | nameTooLong => "File name too long (os error 36)"
  | notEmpty => "Directory not empty (os error 39)"
  | zeroInName => "file name contained an unexpected NUL byte"
  | short => "failed to fill whole buffer"

end FileFault

/-- What a store was doing with a path. -/
inductive FileAction where
  | creating
  | listing
  | opening
  | reading
  | removing
deriving DecidableEq

namespace FileAction

def verb : FileAction → String
  | creating => "create"
  | listing => "list"
  | opening => "open"
  | reading => "read"
  | removing => "remove"

end FileAction

/-- A module source or a store could not be used. -/
inductive SourceFault where
  | pastEnd (len offset : Nat)
  | unreadable (len offset : Nat) (path : String) (why : FileFault)
  | file (action : FileAction) (path : String) (why : FileFault)
  | noModule (id : String)
deriving DecidableEq

namespace SourceFault

def message : SourceFault → String
  | pastEnd len offset =>
    "read of " ++ hex len ++ " bytes at " ++ hex offset ++ " is past the end of the object"
  | unreadable len offset path why =>
    "read " ++ hex len ++ " bytes at " ++ hex offset ++ " from " ++ path ++ ": " ++ why.message
  | file action path why => action.verb ++ " " ++ path ++ ": " ++ why.message
  | noModule id => id ++ " has no module file"

end SourceFault

/-- An object is malformed or of an unsupported kind. -/
inductive ObjectFault where
  | magic
  | notElf32
  | notLittleEndian
  | version
  | notRelocatable (type : Nat)
  | machine (found : Nat)
  | headerSize
  | noSections
  | tooManySections (count limit : Nat)
  | nameTable
  | unreadableName (index : Nat)
  | severalSymbolTables
  | symbolSize
  | noSymbolTable
  | noStringTable
  | missingTarget (index target : Nat)
  | explicitAddends (target : Nat)
  | entrySize
  | relocatedZeros (target : Nat)
  | severalTables (target : Nat)
  | fieldOutsideBuffer (offset : Nat)
  | fieldOutsideSection (offset size : Nat)
  | straddled (boundary : Nat)
deriving DecidableEq

namespace ObjectFault

def message : ObjectFault → String
  | magic => "invalid ELF magic"
  | notElf32 => "not an ELF32 object"
  | notLittleEndian => "not a little-endian object"
  | version => "invalid ELF version"
  | notRelocatable t => "expected a relocatable object, found e_type " ++ toString t
  | machine m => "file arch mismatch: expected 40, found " ++ toString m
  | headerSize => "unexpected section header entry size"
  | noSections => "object has no section headers"
  | tooManySections n limit => toString n ++ " sections exceed the limit of " ++ toString limit
  | nameTable => "section name table index out of range"
  | unreadableName i => "name of section " ++ toString i ++ " is not readable"
  | severalSymbolTables => "more than one symbol table"
  | symbolSize => "unexpected symbol table entry size"
  | noSymbolTable => "object has no symbol table"
  | noStringTable => "symbol table has no string table"
  | missingTarget i t =>
    "relocation section " ++ toString i ++ " targets missing section " ++ toString t
  | explicitAddends t => "RELA relocations for section " ++ toString t ++ " are not supported"
  | entrySize => "unexpected relocation entry size"
  | relocatedZeros t => "relocations against zero-initialized section " ++ toString t
  | severalTables t => "section " ++ toString t ++ " has more than one relocation section"
  | fieldOutsideBuffer offset => "relocation field " ++ hex offset ++ " outside buffer"
  | fieldOutsideSection offset size =>
    "relocation at " ++ hex offset ++ " is outside its " ++ hex size ++ " byte section"
  | straddled b => "relocated fields overlap around offset " ++ hex b

end ObjectFault

/-- A symbol cannot be read or named. -/
inductive SymbolFault where
  | noEntry
  | nameOutside
  | nameTruncated
  | nameNotText
deriving DecidableEq

namespace SymbolFault

def message : SymbolFault → String
  | noEntry => "index past the end of the symbol table"
  | nameOutside => "name offset outside the string table"
  | nameTruncated => "name runs past the buffered string table"
  | nameNotText => "name is not UTF-8"

end SymbolFault

/-- A flash device or region refused an operation. -/
inductive FlashFault where
  | sectorSize (region : String) (sector : Nat)
  | partitionTooLarge (region : String) (offset size device : Nat)
  | partitionUnaligned (region : String)
  | unalignedWrite (region : String) (len offset : Nat)
  | outsidePartition (region : String) (offset len : Nat)
  | outsideDevice (offset len device : Nat)
  | unalignedErase (offset len : Nat)
  | injectedErase (offset : Nat)
  | unalignedProgram (offset len : Nat)
  | injectedWrite (offset : Nat)
  | notErased (offset : Nat)
  | notInXip (name : String) (addr : Addr)
deriving DecidableEq

namespace FlashFault

def message : FlashFault → String
  | sectorSize r s => r ++ ": unusable sector size " ++ hex s
  | partitionTooLarge r offset size device =>
    r ++ ": partition " ++ hex offset ++ "+" ++ hex size ++ " exceeds device size " ++ hex device
  | partitionUnaligned r => r ++ ": partition is not sector aligned"
  | unalignedWrite r len offset =>
    r ++ ": unaligned write of " ++ hex len ++ " bytes at " ++ hex offset
  | outsidePartition r offset len =>
    r ++ ": access " ++ hex offset ++ "+" ++ hex len ++ " outside partition"
  | outsideDevice offset len device =>
    "access " ++ hex offset ++ "+" ++ hex len ++ " outside " ++ hex device ++ " byte device"
  | unalignedErase offset len =>
    "erase " ++ hex offset ++ "+" ++ hex len ++ " is not sector aligned"
  | injectedErase offset => "injected erase failure at " ++ hex offset
  | unalignedProgram offset len =>
    "write " ++ hex offset ++ "+" ++ hex len ++ " is not word aligned"
  | injectedWrite offset => "injected write failure at " ++ hex offset
  | notErased offset => "write at " ++ hex offset ++ " needs an erase first"
  | notInXip s addr => s ++ " at " ++ address addr ++ " is not in XIP flash"

end FlashFault

/-- Module code faulted, or touched memory it may not touch. -/
inductive ExecutionFault where
  | unmappedRead (len : Nat) (addr : Addr)
  | unmappedWrite (len : Nat) (addr : Addr)
  | flashWrite (addr : Addr)
  | textNotUtf8 (addr : Addr)
  | textUnterminated (addr : Addr) (limit : Nat)
  | noReturn (limit : Nat) (pc : Addr)
  | leavesThumb (target : Addr)
  | instruction (bits : UInt32) (pc : Addr)
  | tooManyArguments
  | host (message : String)
deriving DecidableEq

namespace ExecutionFault

def message : ExecutionFault → String
  | unmappedRead len addr =>
    "read of " ++ hex len ++ " bytes from unmapped address " ++ address addr
  | unmappedWrite len addr =>
    "write of " ++ hex len ++ " bytes to unmapped address " ++ address addr
  | flashWrite addr => "write to flash at " ++ address addr
  | textNotUtf8 addr => "string at " ++ address addr ++ " is not UTF-8"
  | textUnterminated addr limit =>
    "string at " ++ address addr ++ " is not terminated within " ++ toString limit ++ " bytes"
  | noReturn limit pc =>
    "no return after " ++ toString limit ++ " instructions, pc " ++ address pc
  | leavesThumb target => "branch to " ++ address target ++ " would leave Thumb state"
  | instruction bits pc =>
    "unsupported instruction " ++ hex4 bits.toNat ++ " at " ++ address pc
  | tooManyArguments => "at most four register arguments"
  | host m => m

end ExecutionFault

/-- A configuration, a request or a caller's own code is at fault. -/
inductive UsageFault where
  | chunkSize (size : Nat)
  | emptyBuffers
  | noSectionLimit
  | notLoaded (id : String)
  | vanished (id : String)
  | other (message : String)
deriving DecidableEq

namespace UsageFault

def message : UsageFault → String
  | chunkSize n => "chunk size " ++ toString n ++ " must be a multiple of 4 and at least 16"
  | emptyBuffers => "relocation batch and symbol cache must hold at least one entry"
  | noSectionLimit => "section limit must be non-zero"
  | notLoaded id => id ++ " is not loaded"
  | vanished id => id ++ " vanished after loading"
  | other m => m

end UsageFault

/-- A promise that callers make was broken; nothing sensible can follow. -/
inductive Breach where
  /-- A size does not fit in 64 bits once it is rounded up. -/
  | sizeOverflow
  /-- A trampoline sector is too small for the record written to it. -/
  | sectorOverrun
  /-- A checkpoint lies ahead of the allocator that it should rewind. -/
  | staleCheckpoint
  /-- The host stub window runs past the end of the address space. -/
  | stubWindow
deriving DecidableEq

inductive Error where
  | io (why : SourceFault)
  | parse (why : ObjectFault)
  | unresolvedSymbol (name : String)
  | invalidSymbol (index : Nat) (why : SymbolFault)
  /-- A symbol counts from a section that has no place. -/
  | unplacedSection (index : Nat)
  | outOfFlash (region : String) (requested available : Nat)
  | outOfMemory (requested available : Nat)
  | flash (why : FlashFault)
  | relocationRange (offset : Nat) (displacement : Int32)
  | unsupportedRelocation (type : UInt32) (offset : Nat)
  | entryNotFound (name : String)
  | entryFailed (id : String)
  | invalidId (id : String)
  | alreadyLoaded (id : String)
  | tooManyExtensions (limit : Nat)
  | manifest
  | execution (why : ExecutionFault)
  | usage (why : UsageFault)
  | breach (why : Breach)
deriving DecidableEq

namespace Error

def message : Error → String
  | io why => "I/O error: " ++ why.message
  | parse why => "Object parsing error: " ++ why.message
  | unresolvedSymbol name => "Unresolved symbol: " ++ name
  | invalidSymbol i why => "Invalid symbol " ++ toString i ++ ": " ++ why.message
  | unplacedSection i => "Symbol refers to unplaced section " ++ toString i
  | outOfFlash region requested available =>
    "Out of flash in " ++ region ++ ": requested " ++ hex requested ++ " bytes, " ++
      hex available ++ " available"
  | outOfMemory requested available =>
    "Out of data pool memory: requested " ++ hex requested ++ " bytes, " ++
      hex available ++ " available"
  | flash why => "Flash I/O error: " ++ why.message
  | relocationRange offset displacement =>
    "Relocation range error: call at " ++ hex offset ++ " needs displacement " ++
      hex displacement.toUInt32.toNat
  | unsupportedRelocation type offset =>
    "Unsupported relocation " ++ Relocation.typeName type ++ " at " ++ hex offset
  | entryNotFound name => "Entry symbol not found: " ++ name
  | entryFailed id => "Entry point of " ++ id ++ " returned null"
  | invalidId id => "Invalid extension identifier: " ++ quoted id
  | alreadyLoaded id => "Extension already loaded: " ++ id
  | tooManyExtensions limit => "Extension limit of " ++ toString limit ++ " reached"
  | manifest => "Manifest error: not a manifest"
  | execution why => "Execution error: " ++ why.message
  | usage why => "Custom error: " ++ why.message
  | breach _ => "Broken promise"

end Error

end FlashLink
