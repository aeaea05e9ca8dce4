import FailurePlayground.Lib.Bytes

namespace FailurePlayground

/-!
# The event record

`pg_event_t` is the wire format between a scenario child and the parent.  A
record is sent as its 256-byte memory image, so the encoding covers every byte
of the structure, padding included, and is a bijection.
-/

/-- `pg_event_kind_t`; the wire carries the kind as an unchecked `uint32_t`. -/
inductive PgEventKind where
  | log
  | counter
  | gauge
  | phase
  | expect
  | actual
  | sutFault
  | done
  | childCrash
  | watchdog
  deriving Repr, DecidableEq

namespace PgEventKind

/-- The enumerator's value. -/
def code : PgEventKind → UInt32
  | .log => 0
  | .counter => 1
  | .gauge => 2
  | .phase => 3
  | .expect => 4
  | .actual => 5
  | .sutFault => 6
  | .done => 7
  | .childCrash => 8
  | .watchdog => 9

end PgEventKind

def pgEventKeyLen : Nat := 32
def pgEventTextLen : Nat := 192
def pgEventMagic : UInt16 := 0xE5E7
def pgEventVersion : UInt8 := 1

/-- `sizeof(pg_event_t)`. -/
def pgEventSize : Nat := 256

/-- `pg_event_t`, with the four padding bytes before `ts_ns` made explicit. -/
structure PgEvent where
  magic : UInt16
  version : UInt8
  pad0 : UInt8
  kind : UInt32
  threadTag : UInt32
  padding : UInt32
  tsNs : UInt64
  num : Int64
  key : Vector UInt8 pgEventKeyLen
  text : Vector UInt8 pgEventTextLen
  deriving DecidableEq

/--
What `snprintf` leaves in a zeroed array: as much of the string as fits before
the terminating NUL.
-/
def cArray (width : Nat) (string : List UInt8) : Vector UInt8 width :=
  Vector.ofFn fun index => (string.take (width - 1)).getD index.val 0

namespace PgEvent

/-- The initialiser `{ .kind = kind }`, with every other member zero. -/
def ofKind (kind : PgEventKind) : PgEvent where
  magic := 0
  version := 0
  pad0 := 0
  kind := kind.code
  threadTag := 0
  padding := 0
  tsNs := 0
  num := 0
  key := Vector.replicate pgEventKeyLen 0
  text := Vector.replicate pgEventTextLen 0

/-- The memory image of a record on a little-endian machine. -/
def encode (event : PgEvent) : List UInt8 :=
  Bytes.toLE 2 event.magic.toNat ++
    (Bytes.toLE 1 event.version.toNat ++
      (Bytes.toLE 1 event.pad0.toNat ++
        (Bytes.toLE 4 event.kind.toNat ++
          (Bytes.toLE 4 event.threadTag.toNat ++
            (Bytes.toLE 4 event.padding.toNat ++
              (Bytes.toLE 8 event.tsNs.toNat ++
                (Bytes.toLE 8 event.num.toUInt64.toNat ++
                  (event.key.toList ++ event.text.toList))))))))

/-- The bytes `[offset, offset + width)` of a memory image. -/
def field (image : List UInt8) (offset width : Nat) : List UInt8 :=
  (image.drop offset).take width

/-- A little-endian word member of a memory image. -/
def wordField (image : List UInt8) (offset width : Nat) : Nat :=
  Bytes.ofLE (field image offset width)

/-- A byte array member of a memory image. -/
def arrayField (image : List UInt8) (offset width : Nat) :
    Vector UInt8 width :=
  Vector.ofFn fun index => image.getD (offset + index.val) 0

/-- The record a 256-byte memory image holds. -/
def decode (image : List UInt8) : PgEvent where
  magic := UInt16.ofNat (wordField image 0 2)
  version := UInt8.ofNat (wordField image 2 1)
  pad0 := UInt8.ofNat (wordField image 3 1)
  kind := UInt32.ofNat (wordField image 4 4)
  threadTag := UInt32.ofNat (wordField image 8 4)
  padding := UInt32.ofNat (wordField image 12 4)
  tsNs := UInt64.ofNat (wordField image 16 8)
  num := Int64.ofUInt64 (UInt64.ofNat (wordField image 24 8))
  key := arrayField image 32 pgEventKeyLen
  text := arrayField image 64 pgEventTextLen

/-- `_Static_assert(sizeof(pg_event_t) == 256)`. -/
theorem length_encode (event : PgEvent) :
    event.encode.length = pgEventSize := by
  have keyLength : event.key.toList.length = 32 :=
    Vector.length_toList
  have textLength : event.text.toList.length = 192 :=
    Vector.length_toList
  simp [encode, pgEventSize, keyLength, textLength]

section Fields

variable {image part rest : List UInt8} {offset width : Nat}

/-- A field past the first part of an image is a field of the rest. -/
theorem field_skip
    (past : part.length ≤ offset) :
    field (part ++ rest) offset width =
      field rest (offset - part.length) width := by
  unfold field
  rw [List.drop_append, List.drop_eq_nil_of_le past, List.nil_append]

/-- The field at offset zero is the first part of an image. -/
theorem field_here
    (wide : part.length = width) :
    field (part ++ rest) 0 width = part := by
  unfold field
  rw [List.drop_zero, ← wide, List.take_left]

/-- A word past the first part of an image is a word of the rest. -/
theorem wordField_skip
    (past : part.length ≤ offset) :
    wordField (part ++ rest) offset width =
      wordField rest (offset - part.length) width := by
  unfold wordField
  rw [field_skip past]

/-- The word at offset zero is the one written there. -/
theorem wordField_here
    {value : Nat}
    (fits : value < 256 ^ width) :
    wordField (Bytes.toLE width value ++ rest) 0 width = value := by
  unfold wordField
  rw [field_here (Bytes.length_toLE width value),
    Bytes.ofLE_toLE fits]

/-- A field within the image has its full width. -/
theorem length_field
    (inside : offset + width ≤ image.length) :
    (field image offset width).length = width := by
  unfold field
  rw [List.length_take, List.length_drop]
  omega

/-- A field followed by everything after it is the image from its offset. -/
theorem field_append_drop :
    field image offset width ++ image.drop (offset + width) =
      image.drop offset := by
  unfold field
  rw [← List.drop_drop]
  exact List.take_append_drop width (image.drop offset)

/-- Array members are read like every other field. -/
theorem toList_arrayField
    (inside : offset + width ≤ image.length) :
    (arrayField image offset width).toList =
      field image offset width := by
  apply List.ext_getElem
  · rw [Vector.length_toList, length_field inside]
  · intro index bound _
    rw [Vector.length_toList] at bound
    have present : offset + index < image.length := by omega
    simp [arrayField, field, List.getD_eq_getElem?_getD, present]

/-- Writing a word member back gives the bytes it was read from. -/
theorem toLE_wordField
    (inside : offset + width ≤ image.length) :
    Bytes.toLE width (wordField image offset width) =
      field image offset width :=
  Bytes.toLE_ofLE (length_field inside)

/-- A word member fits its width. -/
theorem wordField_lt
    (inside : offset + width ≤ image.length) :
    wordField image offset width < 256 ^ width := by
  have bound := Bytes.ofLE_lt (field image offset width)
  rwa [length_field inside] at bound

/-- A field that is the whole image. -/
theorem field_all
    (wide : image.length = width) :
    field image 0 width = image := by
  unfold field
  rw [List.drop_zero, ← wide, List.take_length]

end Fields

/-- Decoding the memory image of a record gives the record back. -/
theorem decode_encode (event : PgEvent) :
    decode event.encode = event := by
  have keyLength : event.key.toList.length = 32 :=
    Vector.length_toList
  have textLength : event.text.toList.length = 192 :=
    Vector.length_toList
  have keyBytes :
      (arrayField event.encode 32 pgEventKeyLen).toList =
        event.key.toList := by
    rw [toList_arrayField (by rw [length_encode]; decide)]
    simp only [encode, field_skip, Bytes.length_toLE,
      Nat.reduceLeDiff, Nat.reduceSub, le_refl]
    exact field_here keyLength
  have textBytes :
      (arrayField event.encode 64 pgEventTextLen).toList =
        event.text.toList := by
    rw [toList_arrayField (by rw [length_encode]; decide)]
    simp only [encode, field_skip, Bytes.length_toLE, keyLength,
      Nat.reduceLeDiff, Nat.reduceSub, le_refl]
    exact field_all textLength
  have key := Vector.toList_inj.mp keyBytes
  have text := Vector.toList_inj.mp textBytes
  have magicFits : event.magic.toNat < 256 ^ 2 := event.magic.toNat_lt
  have versionFits : event.version.toNat < 256 ^ 1 :=
    event.version.toNat_lt
  have padFits : event.pad0.toNat < 256 ^ 1 := event.pad0.toNat_lt
  have kindFits : event.kind.toNat < 256 ^ 4 := event.kind.toNat_lt
  have tagFits : event.threadTag.toNat < 256 ^ 4 :=
    event.threadTag.toNat_lt
  have paddingFits : event.padding.toNat < 256 ^ 4 :=
    event.padding.toNat_lt
  have tsFits : event.tsNs.toNat < 256 ^ 8 := event.tsNs.toNat_lt
  have numFits : event.num.toUInt64.toNat < 256 ^ 8 :=
    event.num.toUInt64.toNat_lt
  have words :
      wordField event.encode 0 2 = event.magic.toNat ∧
        wordField event.encode 2 1 = event.version.toNat ∧
        wordField event.encode 3 1 = event.pad0.toNat ∧
        wordField event.encode 4 4 = event.kind.toNat ∧
        wordField event.encode 8 4 = event.threadTag.toNat ∧
        wordField event.encode 12 4 = event.padding.toNat ∧
        wordField event.encode 16 8 = event.tsNs.toNat ∧
        wordField event.encode 24 8 = event.num.toUInt64.toNat := by
    simp only [encode, wordField_skip, wordField_here,
      Bytes.length_toLE, Nat.reduceLeDiff, Nat.reduceSub, le_refl,
      magicFits, versionFits, padFits, kindFits, tagFits,
      paddingFits, tsFits, numFits, and_self]
  obtain ⟨magic, version, pad0, kind, threadTag, padding, tsNs, num⟩ :=
    words
  simp [decode, key, text, magic, version, pad0, kind, threadTag,
    padding, tsNs, num]

/-- Encoding the record held by a full image gives the image back. -/
theorem encode_decode
    {image : List UInt8}
    (full : image.length = pgEventSize) :
    (decode image).encode = image := by
  have within : image.length = 256 := full
  have fits :
      ∀ offset width, offset + width ≤ 256 →
        wordField image offset width < 256 ^ width :=
    fun _ _ inside => wordField_lt (within ▸ inside)
  have bytes :
      ∀ offset width, offset + width ≤ 256 →
        Bytes.toLE width (wordField image offset width) =
          field image offset width :=
    fun _ _ inside => toLE_wordField (within ▸ inside)
  have magic : (decode image).magic.toNat = wordField image 0 2 :=
    UInt16.toNat_ofNat_of_lt' (fits 0 2 (by omega))
  have version : (decode image).version.toNat = wordField image 2 1 :=
    UInt8.toNat_ofNat_of_lt' (fits 2 1 (by omega))
  have pad0 : (decode image).pad0.toNat = wordField image 3 1 :=
    UInt8.toNat_ofNat_of_lt' (fits 3 1 (by omega))
  have kind : (decode image).kind.toNat = wordField image 4 4 :=
    UInt32.toNat_ofNat_of_lt' (fits 4 4 (by omega))
  have threadTag :
      (decode image).threadTag.toNat = wordField image 8 4 :=
    UInt32.toNat_ofNat_of_lt' (fits 8 4 (by omega))
  have padding : (decode image).padding.toNat = wordField image 12 4 :=
    UInt32.toNat_ofNat_of_lt' (fits 12 4 (by omega))
  have tsNs : (decode image).tsNs.toNat = wordField image 16 8 :=
    UInt64.toNat_ofNat_of_lt' (fits 16 8 (by omega))
  have num :
      (decode image).num.toUInt64.toNat = wordField image 24 8 :=
    UInt64.toNat_ofNat_of_lt' (fits 24 8 (by omega))
  have key : (decode image).key.toList = field image 32 32 :=
    toList_arrayField (by rw [within]; decide)
  have text : (decode image).text.toList = image.drop 64 := by
    have whole : (decode image).text.toList = field image 64 192 :=
      toList_arrayField (by rw [within]; decide)
    rw [whole]
    unfold field
    exact List.take_of_length_le (by rw [List.length_drop, within])
  unfold encode
  rw [magic, version, pad0, kind, threadTag, padding, tsNs, num, key,
    text]
  simp only [bytes, Nat.reduceAdd, Nat.reduceLeDiff]
  -- Glue the fields back together from the last one to the first.
  have glue :
      ∀ offset width,
        field image offset width ++ image.drop (offset + width) =
          image.drop offset :=
    fun _ _ => field_append_drop
  have from32 : field image 32 32 ++ image.drop 64 = image.drop 32 :=
    glue 32 32
  have from24 : field image 24 8 ++ image.drop 32 = image.drop 24 :=
    glue 24 8
  have from16 : field image 16 8 ++ image.drop 24 = image.drop 16 :=
    glue 16 8
  have from12 : field image 12 4 ++ image.drop 16 = image.drop 12 :=
    glue 12 4
  have from8 : field image 8 4 ++ image.drop 12 = image.drop 8 :=
    glue 8 4
  have from4 : field image 4 4 ++ image.drop 8 = image.drop 4 :=
    glue 4 4
  have from3 : field image 3 1 ++ image.drop 4 = image.drop 3 :=
    glue 3 1
  have from2 : field image 2 1 ++ image.drop 3 = image.drop 2 :=
    glue 2 1
  have from0 : field image 0 2 ++ image.drop 2 = image :=
    glue 0 2
  rw [from32, from24, from16, from12, from8, from4, from3, from2,
    from0]

/-- Records with one memory image are one record. -/
theorem encode_injective : Function.Injective encode := by
  intro first second same
  rw [← decode_encode first, same, decode_encode]

end PgEvent

end FailurePlayground
