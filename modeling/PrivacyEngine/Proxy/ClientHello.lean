import PrivacyEngine.Proxy.SniParser

/-!
# The encoding of a ClientHello

A ClientHello nests its parts in vectors that are headed by their length.  The parser takes them
apart again: whatever stands in the parts that it skips, and whatever follows the record, it finds
the host name.
-/

namespace PrivacyEngine

open Wire

/-! ## Vectors -/

def u16Bytes (n : Nat) : Bytes := [UInt8.ofNat (n / 256), UInt8.ofNat n]

def u24Bytes (n : Nat) : Bytes := UInt8.ofNat (n / 65536) :: u16Bytes n

/-- Bytes behind their length, which takes one byte. -/
def vector8 (data : Bytes) : Bytes := UInt8.ofNat data.length :: data

/-- Bytes behind their length, which takes two bytes. -/
def vector16 (data : Bytes) : Bytes := u16Bytes data.length ++ data

/-- Bytes behind their length, which takes three bytes. -/
def vector24 (data : Bytes) : Bytes := u24Bytes data.length ++ data

theorem u16Bytes_length (n : Nat) : (u16Bytes n).length = 2 := rfl

theorem u24Bytes_length (n : Nat) : (u24Bytes n).length = 3 := rfl

theorem vector16_length (data : Bytes) : (vector16 data).length = data.length + 2 := by
  rw [vector16, List.length_append, u16Bytes_length, Nat.add_comm]

theorem readU16_u16Bytes {n : Nat} (fits : n < 65536) (rest : Bytes) :
    readU16 (u16Bytes n ++ rest) = some (n, rest) := by
  have value : (UInt8.ofNat (n / 256)).toNat * 256 + (UInt8.ofNat n).toNat = n := by
    simp only [UInt8.toNat_ofNat']
    omega
  change some ((UInt8.ofNat (n / 256)).toNat * 256 + (UInt8.ofNat n).toNat, rest) = _
  rw [value]

theorem readSlice_append (data rest : Bytes) :
    readSlice data.length (data ++ rest) = some (data, rest) := by
  rw [readSlice, if_pos (by simp), List.take_left, List.drop_left]

theorem skip_append {n : Nat} {data : Bytes} (length_eq : data.length = n) (rest : Bytes) :
    skip n (data ++ rest) = some ((), rest) := by
  subst length_eq
  rw [skip, if_pos (by simp), List.drop_left]

section Steps

variable {α β : Type}

/-- A reader whose first part is known. -/
theorem bind_of_reads {first : Reader α} {next : α → Reader β} {s rest : Bytes} {value : α}
    (reads : first s = some (value, rest)) : (first >>= next) s = next value rest := by
  change (first s).bind _ = _
  rw [reads]
  rfl

variable {next : Reader β} {data : Bytes}

theorem skip_vector8 (fits : data.length ≤ 255) (rest : Bytes) :
    (readU8 >>= fun n => skip n.toNat >>= fun _ => next) (vector8 data ++ rest) = next rest := by
  have head : readU8 (vector8 data ++ rest) = some (UInt8.ofNat data.length, data ++ rest) := rfl
  have length_eq : data.length = (UInt8.ofNat data.length).toNat := by
    rw [UInt8.toNat_ofNat']
    omega
  rw [bind_of_reads head, bind_of_reads (skip_append length_eq rest)]

theorem readU16_vector16 (fits : data.length ≤ 65535) (rest : Bytes) :
    readU16 (vector16 data ++ rest) = some (data.length, data ++ rest) := by
  rw [vector16, List.append_assoc]
  exact readU16_u16Bytes (Nat.lt_succ_of_le fits) _

theorem skip_vector16 (fits : data.length ≤ 65535) (rest : Bytes) :
    (readU16 >>= fun n => skip n >>= fun _ => next) (vector16 data ++ rest) = next rest := by
  rw [bind_of_reads (readU16_vector16 fits rest), bind_of_reads (skip_append rfl rest)]

theorem slice_vector16 (fits : data.length ≤ 65535) (rest : Bytes) :
    (readU16 >>= fun n => readSlice n) (vector16 data ++ rest) = some (data, rest) := by
  rw [bind_of_reads (readU16_vector16 fits rest), readSlice_append]

end Steps

/-! ## The parts of a ClientHello -/

/-- An entry of a server-name list. -/
structure ServerName where
  nameType : UInt8
  name : Bytes
  fits : name.length ≤ 65535

def ServerName.bytes (entry : ServerName) : Bytes := entry.nameType :: vector16 entry.name

structure Extension where
  extType : Nat
  data : Bytes
  type_fits : extType ≤ 65535
  fits : data.length ≤ 65535

def Extension.bytes (extension : Extension) : Bytes :=
  u16Bytes extension.extType ++ vector16 extension.data

/-- What a ClientHello that names a server consists of. -/
structure HelloParts where
  recordVersion : Bytes
  legacyVersion : Bytes
  random : Bytes
  sessionId : Bytes
  cipherSuites : Bytes
  compressionMethods : Bytes
  before : List Extension
  otherNames : List ServerName
  hostName : Str
  laterNames : List ServerName
  after : List Extension

namespace HelloParts

def names (parts : HelloParts) : Bytes :=
  parts.otherNames.flatMap ServerName.bytes ++ 0x00 :: vector16 parts.hostName ++
    parts.laterNames.flatMap ServerName.bytes

def extensions (parts : HelloParts) : Bytes :=
  parts.before.flatMap Extension.bytes ++ (u16Bytes 0x0000 ++ vector16 (vector16 parts.names)) ++
    parts.after.flatMap Extension.bytes

def body (parts : HelloParts) : Bytes :=
  parts.legacyVersion ++ parts.random ++ vector8 parts.sessionId ++ vector16 parts.cipherSuites ++
    vector8 parts.compressionMethods ++ vector16 parts.extensions

def handshake (parts : HelloParts) : Bytes := 0x01 :: vector24 parts.body

/-- The record that holds a ClientHello. -/
def bytes (parts : HelloParts) : Bytes :=
  0x16 :: parts.recordVersion ++ vector16 parts.handshake

end HelloParts

/-- A ClientHello whose parts have the widths of their fields, and whose first host name stands in
its first server-name extension. -/
structure ClientHello extends HelloParts where
  recordVersion_length : recordVersion.length = 2
  legacyVersion_length : legacyVersion.length = 2
  random_length : random.length = 32
  sessionId_fits : sessionId.length ≤ 255
  cipherSuites_fits : cipherSuites.length ≤ 65535
  compressionMethods_fits : compressionMethods.length ≤ 255
  before_others : ∀ extension ∈ before, extension.extType ≠ 0x0000
  otherNames_others : ∀ entry ∈ otherNames, entry.nameType ≠ 0x00
  hostName_valid : Utf8.valid hostName = true
  hostName_fits : hostName.length ≤ 65535
  names_fit : (vector16 toHelloParts.names).length ≤ 65535
  extensions_fit : toHelloParts.extensions.length ≤ 65535
  body_fits : toHelloParts.body.length ≤ 16777215
  handshake_fits : toHelloParts.handshake.length ≤ 65535

/-! ## Taking it apart -/

theorem readName_bytes (entry : ServerName) (rest : Bytes) :
    readName (entry.bytes ++ rest) = some ((entry.nameType, entry.name), rest) := by
  have head : readU8 (entry.bytes ++ rest) = some (entry.nameType, vector16 entry.name ++ rest) :=
    rfl
  rw [readName, bind_of_reads head, bind_of_reads (readU16_vector16 entry.fits rest),
    bind_of_reads (readSlice_append entry.name rest)]
  rfl

theorem readExtension_bytes (extension : Extension) (rest : Bytes) :
    readExtension (extension.bytes ++ rest) =
      some ((extension.extType, extension.data), rest) := by
  have head : readU16 (extension.bytes ++ rest) =
      some (extension.extType, vector16 extension.data ++ rest) := by
    rw [Extension.bytes, List.append_assoc]
    exact readU16_u16Bytes (Nat.lt_succ_of_le extension.type_fits) _
  rw [readExtension, bind_of_reads head, bind_of_reads (readU16_vector16 extension.fits rest),
    bind_of_reads (readSlice_append extension.data rest)]
  rfl

/-- The first entry with a host name is the answer. -/
theorem nameListSni_of_names {others : List ServerName} {host later : Bytes} {fuel : Nat}
    (each : ∀ entry ∈ others, entry.nameType ≠ 0x00) (valid : Utf8.valid host = true)
    (fits : host.length ≤ 65535)
    (enough : (others.flatMap ServerName.bytes ++ 0x00 :: vector16 host ++ later).length < fuel) :
    nameListSni fuel (others.flatMap ServerName.bytes ++ 0x00 :: vector16 host ++ later) =
      some host := by
  induction others generalizing fuel with
  | nil =>
      cases fuel with
      | zero => exact absurd enough (Nat.not_lt_zero _)
      | succ fuel =>
          have reads := readName_bytes ⟨0x00, host, fits⟩ later
          have first : readName (([] : List ServerName).flatMap ServerName.bytes ++
              0x00 :: vector16 host ++ later) = some ((0x00, host), later) := reads
          rw [nameListSni, if_neg (by simp), first]
          exact if_pos valid
  | cons entry others ih =>
      cases fuel with
      | zero => exact absurd enough (Nat.not_lt_zero _)
      | succ fuel =>
          rw [List.flatMap_cons, List.append_assoc, List.append_assoc] at enough ⊢
          have other : entry.nameType ≠ 0x00 := each entry List.mem_cons_self
          have filled : 0 < entry.bytes.length := Nat.succ_pos _
          rw [List.length_append] at enough
          rw [nameListSni, if_neg (by rw [List.length_append]; omega), readName_bytes]
          simp only [if_neg other]
          rw [← List.append_assoc] at enough ⊢
          exact ih (fun entry mem => each entry (List.mem_cons_of_mem _ mem)) (by omega)

theorem parseSniExtension_vector16 {names : Bytes} (fits : names.length ≤ 65535) :
    parseSniExtension (vector16 names) = nameListSni (names.length + 1) names := by
  have reads := readU16_vector16 fits []
  rw [List.append_nil, List.append_nil] at reads
  rw [parseSniExtension, reads]
  exact if_neg (fun differs => differs rfl)

/-- The first server-name extension is the one that is asked. -/
theorem extensionsSni_of_extensions {before : List Extension} {data later : Bytes} {fuel : Nat}
    (each : ∀ extension ∈ before, extension.extType ≠ 0x0000) (fits : data.length ≤ 65535)
    (enough : (before.flatMap Extension.bytes ++ (u16Bytes 0x0000 ++ vector16 data) ++
      later).length < fuel) :
    extensionsSni fuel (before.flatMap Extension.bytes ++ (u16Bytes 0x0000 ++ vector16 data) ++
      later) = parseSniExtension data := by
  induction before generalizing fuel with
  | nil =>
      cases fuel with
      | zero => exact absurd enough (Nat.not_lt_zero _)
      | succ fuel =>
          have reads := readExtension_bytes ⟨0x0000, data, by decide, fits⟩ later
          have first : readExtension (([] : List Extension).flatMap Extension.bytes ++
              (u16Bytes 0x0000 ++ vector16 data) ++ later) = some ((0x0000, data), later) := reads
          have room : ¬ (([] : List Extension).flatMap Extension.bytes ++
              (u16Bytes 0x0000 ++ vector16 data) ++ later).length < 4 := by
            simp [u16Bytes, vector16]
          rw [extensionsSni, if_neg room, first]
          exact if_pos rfl
  | cons extension before ih =>
      cases fuel with
      | zero => exact absurd enough (Nat.not_lt_zero _)
      | succ fuel =>
          rw [List.flatMap_cons, List.append_assoc, List.append_assoc] at enough ⊢
          have other : extension.extType ≠ 0x0000 := each extension List.mem_cons_self
          have filled : 4 ≤ extension.bytes.length := by
            simp [Extension.bytes, u16Bytes, vector16]
          rw [List.length_append] at enough
          rw [extensionsSni, if_neg (by rw [List.length_append]; omega), readExtension_bytes]
          simp only [if_neg other]
          rw [← List.append_assoc] at enough ⊢
          exact ih (fun extension mem => each extension (List.mem_cons_of_mem _ mem)) (by omega)

namespace ClientHello

theorem clientHello_bytes (hello : ClientHello) (trailing : Bytes) :
    clientHello (hello.bytes ++ trailing) = some (hello.extensions, trailing) := by
  have layout : hello.bytes ++ trailing =
      0x16 :: (hello.recordVersion ++ (u16Bytes hello.handshake.length ++
        (0x01 :: (u24Bytes hello.body.length ++ (hello.legacyVersion ++ (hello.random ++
          (vector8 hello.sessionId ++ (vector16 hello.cipherSuites ++
            (vector8 hello.compressionMethods ++
              (vector16 hello.extensions ++ trailing)))))))))) := by
    simp only [HelloParts.bytes, vector16, HelloParts.handshake, vector24, HelloParts.body,
      List.append_assoc, List.cons_append]
  have byte (b : UInt8) (rest : Bytes) : readU8 (b :: rest) = some (b, rest) := rfl
  have passes (b : UInt8) (rest : Bytes) : require (decide (b = b)) rest = some ((), rest) := by
    simp [require]
  rw [layout, clientHello, readExtensionsLen_eq, bind_of_reads (byte _ _),
    bind_of_reads (passes _ _), bind_of_reads (skip_append hello.recordVersion_length _),
    bind_of_reads (skip_append (u16Bytes_length _) _), bind_of_reads (byte _ _),
    bind_of_reads (passes _ _), bind_of_reads (skip_append (u24Bytes_length _) _),
    bind_of_reads (skip_append hello.legacyVersion_length _),
    bind_of_reads (skip_append hello.random_length _), skip_vector8 hello.sessionId_fits,
    skip_vector16 hello.cipherSuites_fits, skip_vector8 hello.compressionMethods_fits]
  exact slice_vector16 hello.extensions_fit trailing

theorem parseSni_bytes (hello : ClientHello) (trailing : Bytes) :
    parseSni (hello.bytes ++ trailing) = some hello.hostName := by
  have names_fit := hello.names_fit
  rw [vector16_length] at names_fit
  rw [parseSni, clientHello_bytes, Option.bind_some]
  calc extensionsSni (hello.extensions.length + 1) hello.extensions
      = parseSniExtension (vector16 hello.names) :=
        extensionsSni_of_extensions hello.before_others hello.names_fit (Nat.lt_succ_self _)
    _ = nameListSni (hello.names.length + 1) hello.names :=
        parseSniExtension_vector16 (by omega)
    _ = some hello.hostName :=
        nameListSni_of_names hello.otherNames_others hello.hostName_valid hello.hostName_fits
          (Nat.lt_succ_self _)

end ClientHello

/-- The parser finds the host name of every ClientHello; on every slice it neither panics nor runs
on, what it finds is a part of the slice, and more bytes behind the slice change nothing. -/
theorem tlsParser_parseSni_exact :
    (∀ (hello : ClientHello) (trailing : Bytes),
      (hello.bytes ++ trailing).length < sliceBound →
        TlsParser.parseSni (hello.bytes ++ trailing) = .ok (some hello.hostName)) ∧
    ∀ buffer : Slice, ∃ found, TlsParser.parseSni buffer.1 = .ok found ∧
      ∀ name, found = some name → name <:+: buffer.1 ∧
        ∀ more : Bytes, (buffer.1 ++ more).length < sliceBound →
          TlsParser.parseSni (buffer.1 ++ more) = .ok (some name) := by
  constructor
  · intro hello trailing slice
    rw [TlsParser.parseSni_eq slice, hello.parseSni_bytes]
  · intro buffer
    refine ⟨parseSni buffer.1, TlsParser.parseSni_eq buffer.2, fun name finds => ?_⟩
    refine ⟨TlsParser.infix_of_parseSni finds, fun more slice => ?_⟩
    rw [TlsParser.parseSni_eq slice, TlsParser.parseSni_append finds]

/-- A ClientHello with an empty extension, another name and then a host name. -/
def exampleHello : ClientHello where
  recordVersion := [3, 1]
  legacyVersion := [3, 3]
  random := List.replicate 32 7
  sessionId := [9]
  cipherSuites := [0x13, 0x01]
  compressionMethods := [0]
  before := [⟨23, [], by decide, by decide⟩]
  otherNames := [⟨1, [0, 0], by decide⟩]
  hostName := ascii "a.example"
  laterNames := []
  after := [⟨0, [], by decide, by decide⟩]
  recordVersion_length := rfl
  legacyVersion_length := rfl
  random_length := rfl
  sessionId_fits := by decide
  cipherSuites_fits := by decide
  compressionMethods_fits := by decide
  before_others := by decide
  otherNames_others := by decide
  hostName_valid := by decide
  hostName_fits := by decide
  names_fit := by decide
  extensions_fit := by decide
  body_fits := by decide
  handshake_fits := by decide

theorem tlsParser_parseSni_exampleHello :
    TlsParser.parseSni (exampleHello.bytes ++ [0x14]) = .ok (some (ascii "a.example")) :=
  tlsParser_parseSni_exact.1 exampleHello [0x14] (by decide)

end PrivacyEngine
