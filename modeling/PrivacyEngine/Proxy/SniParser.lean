import PrivacyEngine.Proxy.Classification
import PrivacyEngine.Wire.Cursor

/-!
# The parser of a ClientHello

The server name is found by a parser that moves a position through the buffer.  It follows the
recognizer of suffixes, so it never panics and always ends, and what it finds is the host name that
a ClientHello was encoded with.
-/

namespace PrivacyEngine
namespace TlsParser

open Wire

/-! ## The parser -/

/-- `Parser::new`. -/
def new (buffer : Bytes) : Cursor := ⟨buffer, 0⟩

def remaining : CursorReader Nat := do
  let p ← get
  return p.buffer.length - p.pos

def readU8 : CursorReader UInt8 := do
  let p ← get
  if p.pos < p.buffer.length then
    let b ← indexed p.buffer[p.pos]?
    set { p with pos := ← plus p.pos 1 }
    return b
  else failure

def readU16 : CursorReader Nat := do
  if (← remaining) ≥ 2 then
    let p ← get
    let high ← indexed p.buffer[p.pos]?
    let low ← indexed p.buffer[← plus p.pos 1]?
    set { p with pos := ← plus p.pos 2 }
    return high.toNat * 256 + low.toNat
  else failure

def skip (n : Nat) : CursorReader Unit := do
  if (← remaining) ≥ n then
    let p ← get
    set { p with pos := ← plus p.pos n }
  else failure

def readSlice (n : Nat) : CursorReader Bytes := do
  if (← remaining) ≥ n then
    let p ← get
    let found ← indexed (slice p.buffer p.pos (← plus p.pos n))
    set { p with pos := ← plus p.pos n }
    return found
  else failure

/-- The loop over the name list, with one unit of fuel per turn. -/
def nameLoop : Nat → CursorReader Str
  | 0 => endWith (.error .endless)
  | fuel + 1 => do
      if (← remaining) > 0 then
        let nameType ← readU8
        let nameLen ← readU16
        let nameBytes ← readSlice nameLen
        if nameType = 0x00 then endWith (.ok (fromUtf8 nameBytes))
        else nameLoop fuel
      else failure

def nameList : CursorReader Str := do
  let listLen ← readU16
  giveUpIf (listLen ≠ (← remaining))
  nameLoop ((← remaining) + 1)

def parseSniExtension (data : Bytes) : Except Fault (Option Str) := nameList.answer (new data)

/-- The loop over the extensions, with one unit of fuel per turn. -/
def extensionLoop : Nat → CursorReader Str
  | 0 => endWith (.error .endless)
  | fuel + 1 => do
      if (← remaining) ≥ 4 then
        let extType ← readU16
        let extLen ← readU16
        let extData ← readSlice extLen
        if extType = 0x0000 then endWith (parseSniExtension extData)
        else extensionLoop fuel
      else failure

/-- The buffer up to the extensions. -/
def helloExtensions : CursorReader Bytes := do
  let recordType ← readU8
  giveUpIf (recordType ≠ 0x16)
  skip 2
  skip 2
  let handshakeType ← readU8
  giveUpIf (handshakeType ≠ 0x01)
  skip 3
  skip 2
  skip 32
  let sessionIdLen ← readU8
  skip sessionIdLen.toNat
  let cipherSuitesLen ← readU16
  skip cipherSuitesLen
  let compressionLen ← readU8
  skip compressionLen.toNat
  giveUpIf ((← remaining) < 2)
  let extensionsLen ← readU16
  readSlice extensionsLen

def hello : CursorReader Str := do
  let extBytes ← helloExtensions
  set (new extBytes)
  extensionLoop ((← remaining) + 1)

def parseSni (buffer : Bytes) : Except Fault (Option Str) := hello.answer (new buffer)

/-! ## The parser follows the recognizer -/

section Primitives

variable {α : Type} {cursor : Cursor} {rest : Bytes}

theorem run_remaining_bind (before : cursor.Before rest) {next : Nat → CursorReader α} :
    ((remaining >>= next).run cursor).run = ((next rest.length).run cursor).run := by
  rw [← before.remaining]
  rfl

theorem follows_readU8 : Follows readU8 Wire.readU8 where
  gives_up := by
    intro cursor rest before unread
    cases rest with
    | nil =>
        have whole : cursor.buffer.length = cursor.pos := before.length_eq
        rw [readU8, CursorReader.run_get_bind, if_neg (by omega)]
        exact CursorReader.run_failure
    | cons b rest => cases unread
  finds := by
    intro cursor rest value left before reads
    cases rest with
    | nil => cases reads
    | cons b rest =>
        cases reads
        have whole : cursor.buffer.length = cursor.pos + (value :: left).length := before.length_eq
        have byte : indexed cursor.buffer[cursor.pos]? = .ok value :=
          congrArg indexed (before.getElem? 0)
        have shifted : cursor.Before ([value] ++ left) := before
        have plus : plus cursor.pos 1 = .ok (cursor.pos + 1) := shifted.plus
        refine ⟨⟨cursor.buffer, cursor.pos + 1⟩, ?_, shifted.shift⟩
        rw [readU8, CursorReader.run_get_bind, if_pos (by rw [whole]; simp),
          CursorReader.run_ok_bind byte, CursorReader.run_ok_bind plus, CursorReader.run_set_bind]
        exact CursorReader.run_pure value

theorem follows_readU16 : Follows readU16 Wire.readU16 where
  gives_up := by
    intro cursor rest before unread
    have short : ¬ rest.length ≥ 2 := by
      rcases rest with - | ⟨high, - | ⟨low, rest⟩⟩
      · simp
      · simp
      · cases unread
    rw [readU16, run_remaining_bind before, if_neg short]
    exact CursorReader.run_failure
  finds := by
    intro cursor rest value left before reads
    obtain ⟨high, low, rfl, rfl⟩ : ∃ high low, rest = high :: low :: left ∧
        value = high.toNat * 256 + low.toNat := by
      rcases rest with - | ⟨high, - | ⟨low, rest⟩⟩
      · cases reads
      · cases reads
      · cases reads
        exact ⟨high, low, rfl, rfl⟩
    have first : indexed cursor.buffer[cursor.pos]? = .ok high :=
      congrArg indexed (before.getElem? 0)
    have second : indexed cursor.buffer[cursor.pos + 1]? = .ok low :=
      congrArg indexed (before.getElem? 1)
    have one : cursor.Before ([high] ++ low :: left) := before
    have two : cursor.Before ([high, low] ++ left) := before
    have plus_one : plus cursor.pos 1 = .ok (cursor.pos + 1) := one.plus
    have plus_two : plus cursor.pos 2 = .ok (cursor.pos + 2) := two.plus
    refine ⟨⟨cursor.buffer, cursor.pos + 2⟩, ?_, two.shift⟩
    rw [readU16, run_remaining_bind before, if_pos (by simp), CursorReader.run_get_bind,
      CursorReader.run_ok_bind first, CursorReader.run_ok_bind plus_one,
      CursorReader.run_ok_bind second, CursorReader.run_ok_bind plus_two, CursorReader.run_set_bind]
    exact CursorReader.run_pure _

theorem follows_skip (n : Nat) : Follows (skip n) (Wire.skip n) where
  gives_up := by
    intro cursor rest before unread
    have short : ¬ rest.length ≥ n := by
      intro fits
      rw [Wire.skip, if_pos fits] at unread
      cases unread
    rw [skip, run_remaining_bind before, if_neg short]
    exact CursorReader.run_failure
  finds := by
    intro cursor rest value left before reads
    rw [Wire.skip] at reads
    split at reads
    · rename_i fits
      cases reads
      have parts : cursor.Before (rest.take n ++ rest.drop n) := by
        rwa [List.take_append_drop]
      have length_eq : (rest.take n).length = n := List.length_take_of_le fits
      have plus := parts.plus
      have moved := parts.shift
      rw [length_eq] at plus moved
      refine ⟨⟨cursor.buffer, cursor.pos + n⟩, ?_, moved⟩
      rw [skip, run_remaining_bind before, if_pos fits, CursorReader.run_get_bind,
        CursorReader.run_ok_bind plus]
      exact CursorReader.run_set
    · cases reads

theorem follows_readSlice (n : Nat) : Follows (readSlice n) (Wire.readSlice n) where
  gives_up := by
    intro cursor rest before unread
    have short : ¬ rest.length ≥ n := by
      intro fits
      rw [Wire.readSlice, if_pos fits] at unread
      cases unread
    rw [readSlice, run_remaining_bind before, if_neg short]
    exact CursorReader.run_failure
  finds := by
    intro cursor rest value left before reads
    rw [Wire.readSlice] at reads
    split at reads
    · rename_i fits
      cases reads
      have parts : cursor.Before (rest.take n ++ rest.drop n) := by
        rwa [List.take_append_drop]
      have length_eq : (rest.take n).length = n := List.length_take_of_le fits
      have plus := parts.plus
      have moved := parts.shift
      have found := congrArg indexed parts.stands.slice
      rw [length_eq] at plus moved found
      refine ⟨⟨cursor.buffer, cursor.pos + n⟩, ?_, moved⟩
      rw [readSlice, run_remaining_bind before, if_pos fits, CursorReader.run_get_bind,
        CursorReader.run_ok_bind plus, CursorReader.run_ok_bind found,
        CursorReader.run_ok_bind plus, CursorReader.run_set_bind]
      exact CursorReader.run_pure _
    · cases reads

theorem follows_remaining : Follows remaining fun s => some (s.length, s) where
  gives_up := fun _ unread => by cases unread
  finds := by
    intro cursor rest value left before reads
    cases reads
    refine ⟨cursor, ?_, before⟩
    rw [← before.remaining]
    rfl

end Primitives

/-! ## The loops -/

/-- One entry of a name list. -/
def nameEntry : CursorReader (UInt8 × Bytes) := do
  let nameType ← readU8
  let nameLen ← readU16
  let nameBytes ← readSlice nameLen
  return (nameType, nameBytes)

theorem nameLoop_succ (fuel : Nat) :
    nameLoop (fuel + 1) = remaining >>= fun left =>
      if left > 0 then
        nameEntry >>= fun entry =>
          if entry.1 = 0x00 then endWith (.ok (fromUtf8 entry.2))
          else nameLoop fuel
      else failure := by
  simp only [nameLoop, nameEntry, bind_assoc, pure_bind]

theorem follows_nameEntry : Follows nameEntry readName :=
  follows_readU8.bind fun _ => follows_readU16.bind fun _ => (follows_readSlice _).bind fun _ =>
    .pure _

theorem determined_readName : Determined readName :=
  .bind .readU8 fun _ => .bind .readU16 fun _ => .bind (.readSlice _) fun _ => .pure _

theorem determined_readExtension : Determined readExtension :=
  .bind .readU16 fun _ => .bind .readU16 fun _ => .bind (.readSlice _) fun _ => .pure _

theorem answer_nameLoop {fuel : Nat} {cursor : Cursor} {rest : Bytes}
    (before : cursor.Before rest) (enough : rest.length < fuel) :
    (nameLoop fuel).answer cursor = .ok (nameListSni fuel rest) := by
  induction fuel generalizing cursor rest with
  | zero => exact absurd enough (Nat.not_lt_zero _)
  | succ fuel ih =>
      obtain ⟨here, run, still⟩ := follows_remaining.finds before rfl
      rw [nameLoop_succ, CursorReader.answer_bind_of_finds run, nameListSni]
      by_cases empty : rest.length = 0
      · rw [if_neg (by omega), if_pos empty]
        rfl
      · rw [if_pos (by omega), if_neg empty]
        cases reads : readName rest with
        | none =>
            exact CursorReader.answer_bind_of_gives_up (follows_nameEntry.gives_up still reads)
        | some found =>
            obtain ⟨⟨nameType, name⟩, left⟩ := found
            obtain ⟨moved, run, there⟩ := follows_nameEntry.finds still reads
            have shorter := determined_readName.shorter rfl reads
            rw [CursorReader.answer_bind_of_finds run]
            by_cases hostName : nameType = 0x00
            · rw [if_pos hostName, CursorReader.answer_endWith]
              exact congrArg _ (if_pos hostName).symm
            · rw [if_neg hostName, ih there (by omega)]
              exact congrArg _ (if_neg hostName).symm

theorem answer_parseSniExtension {data : Bytes} (slice : data.length < sliceBound) :
    parseSniExtension data = .ok (PrivacyEngine.parseSniExtension data) := by
  have before : Cursor.Before (new data) data := .start slice
  rw [parseSniExtension, nameList, PrivacyEngine.parseSniExtension]
  cases reads : Wire.readU16 data with
  | none => exact CursorReader.answer_bind_of_gives_up (follows_readU16.gives_up before reads)
  | some found =>
      obtain ⟨listLen, names⟩ := found
      obtain ⟨moved, run, there⟩ := follows_readU16.finds before reads
      obtain ⟨asked, run', there'⟩ := follows_remaining.finds there rfl
      rw [CursorReader.answer_bind_of_finds run, CursorReader.answer_bind_of_finds run']
      by_cases malformed : listLen ≠ names.length
      · have gives_up := (Follows.giveUpIf rfl).gives_up there' (if_neg (by simpa using malformed))
        rw [CursorReader.answer_bind_of_gives_up gives_up]
        exact congrArg _ (if_pos malformed).symm
      · obtain ⟨kept, run, there⟩ :=
          (Follows.giveUpIf rfl : Follows (giveUpIf (listLen ≠ names.length)) (require _)).finds
            there' (if_pos (by simpa using malformed))
        obtain ⟨asked, run', there'⟩ := follows_remaining.finds there rfl
        rw [CursorReader.answer_bind_of_finds run, CursorReader.answer_bind_of_finds run',
          answer_nameLoop there' (Nat.lt_succ_self _)]
        exact congrArg _ (if_neg malformed).symm

/-- One extension. -/
def extension : CursorReader (Nat × Bytes) := do
  let extType ← readU16
  let extLen ← readU16
  let extData ← readSlice extLen
  return (extType, extData)

theorem extensionLoop_succ (fuel : Nat) :
    extensionLoop (fuel + 1) = remaining >>= fun left =>
      if left ≥ 4 then
        extension >>= fun entry =>
          if entry.1 = 0x0000 then endWith (parseSniExtension entry.2)
          else extensionLoop fuel
      else failure := by
  simp only [extensionLoop, extension, bind_assoc, pure_bind]

theorem follows_extension : Follows extension readExtension :=
  follows_readU16.bind fun _ => follows_readU16.bind fun _ => (follows_readSlice _).bind fun _ =>
    .pure _

theorem within_readName : Within readName Prod.snd :=
  .bind .readU8 fun _ => .bind .readU16 fun _ => .map (.readSlice _) fun _ => rfl

theorem within_readExtension : Within readExtension Prod.snd :=
  .bind .readU16 fun _ => .bind .readU16 fun _ => .map (.readSlice _) fun _ => rfl

theorem answer_extensionLoop {fuel : Nat} {cursor : Cursor} {rest : Bytes}
    (before : cursor.Before rest) (enough : rest.length < fuel) :
    (extensionLoop fuel).answer cursor = .ok (extensionsSni fuel rest) := by
  induction fuel generalizing cursor rest with
  | zero => exact absurd enough (Nat.not_lt_zero _)
  | succ fuel ih =>
      obtain ⟨here, run, still⟩ := follows_remaining.finds before rfl
      rw [extensionLoop_succ, CursorReader.answer_bind_of_finds run, extensionsSni]
      by_cases short : rest.length < 4
      · rw [if_neg (by omega), if_pos short]
        rfl
      · rw [if_pos (by omega), if_neg short]
        cases reads : readExtension rest with
        | none =>
            exact CursorReader.answer_bind_of_gives_up (follows_extension.gives_up still reads)
        | some found =>
            obtain ⟨⟨extType, data⟩, left⟩ := found
            obtain ⟨moved, run, there⟩ := follows_extension.finds still reads
            have shorter := determined_readExtension.shorter rfl reads
            have slice : data.length < sliceBound :=
              (within_readExtension _ _ _ reads).length_le.trans_lt before.length_lt
            rw [CursorReader.answer_bind_of_finds run]
            by_cases serverName : extType = 0x0000
            · rw [if_pos serverName, CursorReader.answer_endWith, answer_parseSniExtension slice]
              exact congrArg _ (if_pos serverName).symm
            · rw [if_neg serverName, ih there (by omega)]
              exact congrArg _ (if_neg serverName).symm

/-! ## The whole parser -/

theorem readExtensions_eq :
    (readExtensionsLen >>= fun extensionsLen => Wire.readSlice extensionsLen) =
      (fun s => some (s.length, s) : Reader Nat) >>= fun left =>
        require (!decide (left < 2)) >>= fun _ => Wire.readU16 >>= fun extensionsLen =>
          Wire.readSlice extensionsLen := by
  funext s
  by_cases short : s.length < 2
  · have unread : readExtensionsLen s = none := if_pos short
    have required : require (!decide (s.length < 2)) s = none := if_neg (by simpa using short)
    change (readExtensionsLen s).bind _ = (require (!decide (s.length < 2)) s).bind _
    rw [unread, required]
    rfl
  · have read : readExtensionsLen s = Wire.readU16 s := if_neg short
    have required : require (!decide (s.length < 2)) s = some ((), s) :=
      if_pos (by simpa using short)
    change (readExtensionsLen s).bind _ = (require (!decide (s.length < 2)) s).bind _
    rw [read, required]
    rfl

theorem follows_helloExtensions : Follows helloExtensions clientHello := by
  unfold clientHello
  rw [readExtensions_eq]
  refine .bind follows_readU8 fun recordType => .bind (.giveUpIf (by simp)) fun _ =>
    .bind (follows_skip 2) fun _ => .bind (follows_skip 2) fun _ =>
    .bind follows_readU8 fun handshakeType => .bind (.giveUpIf (by simp)) fun _ =>
    .bind (follows_skip 3) fun _ => .bind (follows_skip 2) fun _ => .bind (follows_skip 32) fun _ =>
    .bind follows_readU8 fun sessionIdLen => .bind (follows_skip _) fun _ =>
    .bind follows_readU16 fun cipherSuitesLen => .bind (follows_skip _) fun _ =>
    .bind follows_readU8 fun compressionLen => .bind (follows_skip _) fun _ =>
    .bind follows_remaining fun left => .bind (.giveUpIf rfl) fun _ =>
    .bind follows_readU16 fun extensionsLen => follows_readSlice _

theorem within_clientHello : Within clientHello id := by
  unfold clientHello
  rw [readExtensionsLen_eq]
  refine .bind .readU8 fun _ => .bind (.require _) fun _ => .bind (.skip 2) fun _ =>
    .bind (.skip 2) fun _ => .bind .readU8 fun _ => .bind (.require _) fun _ =>
    .bind (.skip 3) fun _ => .bind (.skip 2) fun _ => .bind (.skip 32) fun _ =>
    .bind .readU8 fun _ => .bind (.skip _) fun _ => .bind .readU16 fun _ =>
    .bind (.skip _) fun _ => .bind .readU8 fun _ => .bind (.skip _) fun _ =>
    .bind .readU16 fun _ => .readSlice _

/-- The parser finds what the recognizer finds, and never panics. -/
theorem parseSni_eq {buffer : Bytes} (slice : buffer.length < sliceBound) :
    parseSni buffer = .ok (PrivacyEngine.parseSni buffer) := by
  have before : Cursor.Before (new buffer) buffer := .start slice
  rw [parseSni, hello, PrivacyEngine.parseSni]
  cases reads : clientHello buffer with
  | none =>
      exact CursorReader.answer_bind_of_gives_up (follows_helloExtensions.gives_up before reads)
  | some found =>
      obtain ⟨extensions, left⟩ := found
      obtain ⟨moved, run, there⟩ := follows_helloExtensions.finds before reads
      have short := (within_clientHello _ _ _ reads).length_le
      have inside : Cursor.Before (new extensions) extensions := .start (short.trans_lt slice)
      have run_set : ((set (new extensions) : CursorReader PUnit).run moved).run =
          .ok (some ((), new extensions)) := CursorReader.run_set
      obtain ⟨asked, run', there'⟩ := follows_remaining.finds inside rfl
      rw [CursorReader.answer_bind_of_finds run, CursorReader.answer_bind_of_finds run_set,
        CursorReader.answer_bind_of_finds run', answer_extensionLoop there' (Nat.lt_succ_self _)]
      rfl

/-! ## What is found stands in the buffer -/

theorem infix_of_nameListSni {fuel : Nat} {names name : Bytes}
    (finds : nameListSni fuel names = some name) : name <:+: names := by
  induction fuel generalizing names with
  | zero => cases finds
  | succ fuel ih =>
      rw [nameListSni] at finds
      split at finds
      · cases finds
      cases reads : readName names with
      | none =>
          rw [reads] at finds
          cases finds
      | some found =>
          obtain ⟨⟨nameType, entry⟩, left⟩ := found
          simp only [reads] at finds
          split at finds
          · rw [fromUtf8] at finds
            split at finds
            · cases finds
              exact within_readName _ _ _ reads
            · cases finds
          · obtain ⟨used, rfl, -⟩ := determined_readName _ _ _ reads
            exact (ih finds).trans (List.suffix_append _ _).isInfix

theorem infix_of_parseSniExtension {data name : Bytes}
    (finds : PrivacyEngine.parseSniExtension data = some name) : name <:+: data := by
  rw [PrivacyEngine.parseSniExtension] at finds
  cases reads : Wire.readU16 data with
  | none =>
      rw [reads] at finds
      cases finds
  | some found =>
      obtain ⟨listLen, names⟩ := found
      simp only [reads] at finds
      split at finds
      · cases finds
      · obtain ⟨used, rfl, -⟩ := Determined.readU16 _ _ _ reads
        exact (infix_of_nameListSni finds).trans (List.suffix_append _ _).isInfix

theorem infix_of_extensionsSni {fuel : Nat} {extensions name : Bytes}
    (finds : extensionsSni fuel extensions = some name) : name <:+: extensions := by
  induction fuel generalizing extensions with
  | zero => cases finds
  | succ fuel ih =>
      rw [extensionsSni] at finds
      split at finds
      · cases finds
      cases reads : readExtension extensions with
      | none =>
          rw [reads] at finds
          cases finds
      | some found =>
          obtain ⟨⟨extType, data⟩, left⟩ := found
          simp only [reads] at finds
          split at finds
          · exact (infix_of_parseSniExtension finds).trans (within_readExtension _ _ _ reads)
          · obtain ⟨used, rfl, -⟩ := determined_readExtension _ _ _ reads
            exact (ih finds).trans (List.suffix_append _ _).isInfix

theorem infix_of_parseSni {buffer name : Bytes}
    (finds : PrivacyEngine.parseSni buffer = some name) :
    name <:+: buffer := by
  obtain ⟨⟨extensions, left⟩, reads, found⟩ := Option.bind_eq_some_iff.mp finds
  exact (infix_of_extensionsSni found).trans (within_clientHello _ _ _ reads)

/-- More bytes behind a buffer do not change the name that has been found. -/
theorem parseSni_append {buffer name : Bytes} (finds : PrivacyEngine.parseSni buffer = some name)
    (more : Bytes) : PrivacyEngine.parseSni (buffer ++ more) = some name := by
  obtain ⟨⟨extensions, left⟩, reads, found⟩ := Option.bind_eq_some_iff.mp finds
  obtain ⟨used, rfl, again⟩ := determined_clientHello _ _ _ reads
  rw [PrivacyEngine.parseSni, List.append_assoc, again]
  exact found

end TlsParser
end PrivacyEngine
