import Scaffold.Package.Archive.Basic

/-!
# Package/Archive/Bytes — archives as bytes

Contents are stored without compression.  A zip archive holds a record for each entry, followed by a
directory of them; a tar archive holds a header block and padded content for each entry, and is
wrapped as one compressed stream.  Names that do not fit a tar header are given in an extended one.
-/

/-! ## The cyclic redundancy check -/

namespace Scaffold.Digest

/-- One bit of the division by the reversed polynomial. -/
def crcBit (c : UInt32) : UInt32 :=
  if c &&& 1 = 1 then (0xedb88320 : UInt32) ^^^ (c >>> 1) else c >>> 1

/-- The remainders of the single bytes. -/
def crcTable : Array UInt32 :=
  (Array.range 256).map fun n => (List.range 8).foldl (fun c _ => crcBit c) n.toUInt32

/-- The remainder after one more byte. -/
def crcByte (c : UInt32) (b : UInt8) : UInt32 :=
  crcTable.getD ((c ^^^ b.toUInt32) &&& 0xff).toNat 0 ^^^ (c >>> 8)

def crc32 (bytes : ByteArray) : UInt32 := bytes.foldl crcByte 0xffffffff ^^^ 0xffffffff

end Scaffold.Digest

namespace Scaffold.Package.Archive

open Options

def append (parts : List ByteArray) : ByteArray := parts.foldl (· ++ ·) .empty

/-- A number in `size` bytes, the lowest first. -/
def littleEndian (size n : Nat) : ByteArray :=
  ⟨(Array.range size).map fun i => (n >>> (8 * i)).toUInt8⟩

def zeros (n : Nat) : ByteArray := ⟨Array.replicate n 0⟩

/-! ## Zip -/

/-- The fields that both records of an entry share. -/
def zipFields (name content : ByteArray) : ByteArray :=
  append [littleEndian 2 20, littleEndian 2 0x800, littleEndian 2 0, littleEndian 2 0,
    littleEndian 2 0x21, littleEndian 4 (Digest.crc32 content).toNat, littleEndian 4 content.size,
    littleEndian 4 content.size, littleEndian 2 name.size, littleEndian 2 0]

/-- The record of an entry with its content. -/
def zipRecord (e : Entry) : ByteArray :=
  let name := e.name.toUTF8
  let content := e.content.toUTF8
  append [littleEndian 4 0x04034b50, zipFields name content, name, content]

/-- The entry of the directory for a record at an offset. -/
def zipDirectoryEntry (e : Entry) (offset : Nat) : ByteArray :=
  let name := e.name.toUTF8
  append [littleEndian 4 0x02014b50, littleEndian 2 0x314, zipFields name e.content.toUTF8,
    littleEndian 2 0, littleEndian 2 0, littleEndian 2 0, littleEndian 4 (0o600 * 65536),
    littleEndian 4 offset, name]

/-- The records and the directory of entries. -/
def zipParts (es : List Entry) : ByteArray × ByteArray :=
  es.foldl (fun (records, directory) e =>
    (records ++ zipRecord e, directory ++ zipDirectoryEntry e records.size)) (.empty, .empty)

def zip (es : List Entry) : ByteArray :=
  let (records, directory) := zipParts es
  append [records, directory, littleEndian 4 0x06054b50, littleEndian 4 0, littleEndian 2 es.length,
    littleEndian 2 es.length, littleEndian 4 directory.size, littleEndian 4 records.size,
    littleEndian 2 0]

/-! ## Tar -/

def blockSize : Nat := 512

/-- Zeros up to a multiple of the size. -/
def padded (size : Nat) (bytes : ByteArray) : ByteArray :=
  bytes ++ zeros ((size - bytes.size % size) % size)

/-- A text cut or filled up with zeros to a size. -/
def field (size : Nat) (bytes : ByteArray) : ByteArray :=
  let bytes := bytes.extract 0 size
  bytes ++ zeros (size - bytes.size)

/-- A number in octal digits with zeros in front, and a final zero byte. -/
def octal (size n : Nat) : ByteArray :=
  let digits := String.ofList (Nat.toDigits 8 n)
  field size (Number.padLeft (size - 1) '0' digits).toUTF8

/-- A header block of a given type, for content of a given size. -/
def tarHeader (name : ByteArray) (kind : Char) (size moment : Nat) : ByteArray :=
  let front := append [field 100 name, octal 8 0o644, octal 8 0, octal 8 0, octal 12 size,
    octal 12 moment]
  let back := field 355 (kind.toString ++ String.ofList (List.replicate 100 '\x00') ++
    "ustar\x0000").toUTF8
  let sum := (front ++ back).foldl (fun n b => n + b.toNat) (8 * 32)
  padded blockSize (append [front, octal 7 sum, " ".toUTF8, back])

/-- A line of an extended header, which begins with its own length. -/
def extendedLine (key : String) (value : ByteArray) : ByteArray :=
  let rest := (" " ++ key ++ "=").toUTF8 ++ value ++ "\n".toUTF8
  let guess := rest.size + (toString rest.size).length
  let length := rest.size + (toString guess).length
  (toString length).toUTF8 ++ rest

/-- An entry with its header, and before it an extended header if the name needs one. -/
def tarEntry (moment : Nat) (e : Entry) : ByteArray :=
  let name := e.name.toUTF8
  let content := e.content.toUTF8
  let extended := extendedLine "path" name
  append [
    if isShortName e.name then .empty
    else tarHeader "PaxHeader".toUTF8 'x' extended.size moment ++ padded blockSize extended,
    tarHeader name '0' content.size moment, padded blockSize content]

/-- The entries of an archive, all written at one moment in seconds. -/
def tar (moment : Nat) (es : List Entry) : ByteArray :=
  padded 10240 (append (es.map (tarEntry moment)) ++ zeros (2 * blockSize))

/-! ## Compressed streams -/

/-- A stored block. -/
def storedBlock (isLast : Bool) (bytes : ByteArray) : ByteArray :=
  append [littleEndian 1 (if isLast then 1 else 0), littleEndian 2 bytes.size,
    littleEndian 2 (0xffff - bytes.size), bytes]

/-- Bytes as a stream of stored blocks. -/
def storedStream (bytes : ByteArray) : ByteArray :=
  let size := 0xffff
  let count := (bytes.size - 1) / size + 1
  append ((List.range count).map fun i =>
    storedBlock (i + 1 == count) (bytes.extract (i * size) ((i + 1) * size)))

def gzip (moment : Nat) (bytes : ByteArray) : ByteArray :=
  append [littleEndian 4 0x88b1f, littleEndian 4 moment, littleEndian 2 0xff00, storedStream bytes,
    littleEndian 4 (Digest.crc32 bytes).toNat, littleEndian 4 bytes.size]

/-! ## Archives -/

/-- The bytes of an archive that is written at a moment in seconds. -/
def bytes (format : ArchiveFormat) (moment : Nat) (es : List Entry) : ByteArray :=
  match format with
  | .zip => zip es
  | .tar => gzip moment (tar moment es)

end Scaffold.Package.Archive
