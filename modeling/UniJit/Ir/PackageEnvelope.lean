import UniJit.Ir.PackageFormat

/-!
# The envelope of a package

Header, digest and manifest. `packageOf kind m body` are the bytes of a package with manifest `m`
and table bytes `body`; the envelope parser accepts exactly such bytes, for manifests that are
`EnvelopeOk`, and never faults (`settles_parseEnvelope`). The declared sizes of the tables add up to
the body, and so every count of an accepted manifest is bounded by the payload
(`EnvelopeOk.bounded`).
-/

namespace UniJit.Ir

open UniJit.Lib

/-! ## Size arithmetic -/

/-- The checked addition gives the sum exactly when it fits the size type. -/
lemma checkedAddProduct_eq {value : Nat} (count elementSize : Nat) (hvalue : value ≤ kMaximumSize) :
    checkedAddProduct value count elementSize =
      .ok (if value + count * elementSize ≤ kMaximumSize then some (value + count * elementSize)
        else none) := by
  unfold checkedAddProduct
  by_cases hzero : elementSize = 0
  · simp only [hzero, ne_eq, not_true_eq_false, false_and, if_false, Nat.mul_zero, Nat.zero_le,
      if_true]
    exact checkedAdd_eq 0 hvalue
  · have hpos : 0 < elementSize := Nat.pos_of_ne_zero hzero
    by_cases hproduct : count * elementSize ≤ kMaximumSize
    · rw [if_neg, if_pos hproduct]
      · exact checkedAdd_eq _ hvalue
      · rintro ⟨-, hlt⟩
        have := (Nat.div_lt_iff_lt_mul hpos).mp hlt
        omega
    · rw [if_pos ⟨hzero, (Nat.div_lt_iff_lt_mul hpos).mpr (by omega)⟩, if_neg (by omega)]

/-- The size of tables with the given counts and record sizes. -/
def recordsSize (records : List (BitVec 32 × Nat)) : Nat :=
  (records.map fun r => r.1.toNat * r.2).sum

/-- Adding up records gives the sum exactly when it fits the size type. -/
lemma addProducts_eq (records : List (BitVec 32 × Nat)) {size : Nat} (hsize : size ≤ kMaximumSize) :
    addProducts records size =
      .ok (if size + recordsSize records ≤ kMaximumSize then some (size + recordsSize records)
        else none) := by
  induction records generalizing size with
  | nil => simp [addProducts, recordsSize, hsize]
  | cons record records ih =>
      obtain ⟨count, recordSize⟩ := record
      have hcons : recordsSize ((count, recordSize) :: records) =
          count.toNat * recordSize + recordsSize records := by simp [recordsSize]
      rw [addProducts, checkedAddProduct_eq _ _ hsize, hcons]
      by_cases hstep : size + count.toNat * recordSize ≤ kMaximumSize
      · rw [if_pos hstep]
        show addProducts records _ = _
        rw [ih hstep, Nat.add_assoc]
      · rw [if_neg hstep, if_neg (by omega)]
        rfl

/-- The announced size is the manifest and its records, when that fits the size type. -/
lemma settles_expectedPayloadSize (m : Manifest) :
    Settles (expectedPayloadSize m) fun size =>
      kManifestSize + recordsSize m.records ≤ kMaximumSize ∧
        size = kManifestSize + recordsSize m.records := by
  unfold expectedPayloadSize
  rw [addProducts_eq _ (by decide)]
  by_cases hsize : kManifestSize + recordsSize m.records ≤ kMaximumSize
  · rw [if_pos hsize]
    exact (Settles.pure _).congr fun size => by simp [hsize]
  · rw [if_neg hsize]
    exact ⟨fun f => by simp [Bind.bind, Except.bind], fun size => by
      simp [Bind.bind, Except.bind, hsize]⟩

/-- Every count of a manifest is bounded by the size of its tables. -/
lemma bounded_recordsSize (m : Manifest) : m.Bounded (recordsSize m.records) := by
  intro count hcount
  obtain ⟨⟨count', recordSize⟩, hmem, rfl⟩ := List.mem_map.mp hcount
  have hpositive : ∀ r ∈ m.records, 0 < r.2 := by
    simp only [Manifest.records, List.forall_mem_cons, kNodeRecordSize, kFastCallRecordSize,
      kMemoryRecordSize, kAtomicRecordSize, kFrameRecordSize, kTrustedObjectRecordSize,
      kPatchCellRecordSize, kVectorConstantRecordSize, kVectorShuffleRecordSize, kBlockRecordSize]
    simp
  calc count'.toNat ≤ count'.toNat * recordSize := Nat.le_mul_of_pos_right _ (hpositive _ hmem)
    _ ≤ recordsSize m.records :=
        List.single_le_sum (by simp) _ (List.mem_map_of_mem (f := fun r => r.1.toNat * r.2) hmem)

/-- Comparing with the limits reaches no fault. -/
lemma validateManifestLimits_safe (m : Manifest) (kind : PortableIrKind)
    (limits : PortableIrLimits) (f : Fault) :
    validateManifestLimits m kind limits ≠ .error (.fault f) := by
  have hstep : ∀ {c : Prop} [Decidable c] {e : Status} {k : Unit → Except (Failure Status) Unit},
      k () ≠ .error (.fault f) → (rejectUnless c e >>= k) ≠ .error (.fault f) := by
    intro c _ e k hk
    by_cases hc : c
    · simpa [rejectUnless, require, hc, Bind.bind, Except.bind] using hk
    · simp [rejectUnless, require, hc, Bind.bind, Except.bind]
  have hlast : ∀ {c : Prop} [Decidable c] {e : Status},
      rejectUnless c e ≠ .error (.fault f) := by
    intro c _ e
    by_cases hc : c <;> simp [rejectUnless, require, hc]
  unfold validateManifestLimits
  iterate 12 refine hstep ?_
  cases kind with
  | function => exact hlast
  | controlFlow => exact hlast

/-! ## Header and manifest -/

/-- The bytes of a header. -/
def headerBytes (h : PackageHeader) : List Byte :=
  h.magic ++ (leBytes 2 h.formatVersion ++ (leBytes 2 h.minimumReaderVersion ++ ([h.kind] ++
    ([h.flags] ++ (leBytes 2 h.headerSize ++ (leBytes 8 h.totalSize ++
    (leBytes 8 h.payloadSize ++ h.digest)))))))

variable {limit : Nat}

/-- Raw bytes are read as they stand. -/
lemma reads_raw {count : Nat} {e : Status} :
    Reads limit (Reading.raw count e) fun a bs => a.length = count ∧ bs = a :=
  Reads.raw.congr fun a bs => by
    constructor
    · rintro ⟨hlength, rfl⟩
      exact ⟨hlength, rfl⟩
    · rintro ⟨hlength, rfl⟩
      exact ⟨hlength, rfl⟩

/-- Reading the header inverts writing it. -/
lemma reads_header :
    Reads limit readHeader fun h bs =>
      (h.magic.length = 8 ∧ h.digest.length = kPortableIrDigestSize) ∧ bs = headerBytes h := by
  unfold readHeader
  refine Reads.congr (reads_raw.bindEq fun magic _ => Reads.u16.bindBytes fun formatVersion =>
    Reads.u16.bindBytes fun minimumReaderVersion => Reads.u8.bindBytes fun kind =>
    Reads.u8.bindBytes fun flags => Reads.u16.bindBytes fun headerSize =>
    Reads.u64.bindBytes fun totalSize => Reads.u64.bindBytes fun payloadSize =>
    reads_raw.bindEq fun digest _ => Reads.pure _) fun h bs => ?_
  constructor
  · rintro ⟨magic, hmagic, _, ⟨formatVersion, _, ⟨minimumReaderVersion, _, ⟨kind, _, ⟨flags, _,
      ⟨headerSize, _, ⟨totalSize, _, ⟨payloadSize, _, ⟨digest, hdigest, _, ⟨rfl, rfl⟩, rfl⟩, rfl⟩,
      rfl⟩, rfl⟩, rfl⟩, rfl⟩, rfl⟩, rfl⟩, rfl⟩
    exact ⟨⟨hmagic, hdigest⟩, by simp only [headerBytes, List.append_nil]⟩
  · rintro ⟨⟨hmagic, hdigest⟩, rfl⟩
    refine ⟨h.magic, hmagic, _, ⟨h.formatVersion, _, ⟨h.minimumReaderVersion, _, ⟨h.kind, _,
      ⟨h.flags, _, ⟨h.headerSize, _, ⟨h.totalSize, _, ⟨h.payloadSize, _, ⟨h.digest, hdigest, [],
      ⟨rfl, rfl⟩, rfl⟩, rfl⟩, rfl⟩, rfl⟩, rfl⟩, rfl⟩, rfl⟩, rfl⟩, ?_⟩
    simp only [headerBytes, List.append_nil]

/-- The words of a manifest determine it, and any 24 words are those of a manifest. -/
lemma ofWords_words (m : Manifest) : Manifest.ofWords m.words = m := rfl

/-- A manifest made from its words has these words. -/
lemma words_ofWords {words : List (BitVec 32)} (hlength : words.length = kManifestWords) :
    (Manifest.ofWords words).words = words := by
  refine List.ext_getElem (by rw [hlength]; rfl) fun i hi hi' => ?_
  rw [hlength] at hi'
  unfold kManifestWords at hi'
  have hget : ∀ j (hj : j < words.length), words.getD j 0 = words[j] := by
    intro j hj
    simp [List.getD, List.getElem?_eq_getElem hj]
  interval_cases i <;> exact hget _ _

/-- The bytes of a manifest. -/
def manifestBytes (m : Manifest) : List Byte := m.words.flatMap (leBytes 4)

lemma length_manifestBytes (m : Manifest) : (manifestBytes m).length = kManifestSize := by
  simp [manifestBytes, Manifest.words, kManifestSize]

/-- Reading the manifest inverts writing it. -/
lemma reads_manifest : Reads limit readManifest fun m bs => bs = manifestBytes m := by
  unfold readManifest
  have hword : ∀ i : Nat, Reads limit
      (Reading.u32 (invalidPackage "portable IR manifest is truncated"))
      fun a bs => True ∧ bs = leBytes 4 a := fun _ => Reads.u32.congr fun a bs => by simp
  refine Reads.congr ((Reads.table hword 0 kManifestWords).bindEq fun words _ =>
    Reads.pure (Manifest.ofWords words)) fun m bs => ?_
  constructor
  · rintro ⟨words, ⟨hlength, -⟩, _, ⟨rfl, rfl⟩, rfl⟩
    rw [manifestBytes, words_ofWords hlength, List.append_nil]
  · rintro rfl
    exact ⟨m.words, ⟨rfl, by simp⟩, [], ⟨(ofWords_words m).symm, rfl⟩, (List.append_nil _).symm⟩

/-! ## The envelope -/

/-- The payload of a package. -/
def packagePayload (m : Manifest) (body : List Byte) : List Byte := manifestBytes m ++ body

/-- The bytes of a package. -/
def packageOf (kind : PortableIrKind) (m : Manifest) (body : List Byte) : List Byte :=
  packageHeader kind (packagePayload m body) ++ packagePayload m body

/-- What the decoder demands of a manifest in front of a body of the given size. -/
structure EnvelopeOk (limits : PortableIrLimits) (kind : PortableIrKind) (m : Manifest)
    (bodySize : Nat) : Prop where
  schema : m.schema = kSchemaRevision
  reserved : m.reserved0 = 0 ∧ m.reserved1 = 0 ∧ m.reserved2 = 0 ∧ m.reserved3 = 0
  withinLimits : validateManifestLimits m kind limits = .ok ()
  size : recordsSize m.records = bodySize
  bytes : kBodyOffset + bodySize ≤ limits.maximumPackageBytes
  small : kBodyOffset + bodySize ≤ kMaximumSize

/-- The envelope of a package. -/
def envelopeOf (kind : PortableIrKind) (m : Manifest) (body : List Byte) : Envelope :=
  ⟨packageMetadata kind (packagePayload m body).length (packageSha256 (packagePayload m body)) m, m,
    body.length⟩

/-- The size of a payload. -/
lemma length_packagePayload (m : Manifest) (body : List Byte) :
    (packagePayload m body).length = kManifestSize + body.length := by
  rw [packagePayload, List.length_append, length_manifestBytes]

/-- The header fields of a package. -/
def headerOf (kind : PortableIrKind) (payload : List Byte) : PackageHeader where
  magic := kMagic
  formatVersion := kPortableIrFormatVersion
  minimumReaderVersion := kPortableIrFormatVersion
  kind := kind.code
  flags := 0
  headerSize := BitVec.ofNat 16 kHeaderSize
  totalSize := BitVec.ofNat 64 (kHeaderSize + payload.length)
  payloadSize := BitVec.ofNat 64 payload.length
  digest := packageSha256 payload

/-- The written header of a payload. -/
lemma headerBytes_headerOf (kind : PortableIrKind) (payload : List Byte) :
    headerBytes (headerOf kind payload) = packageHeader kind payload := by
  simp only [headerBytes, headerOf, packageHeader, List.append_assoc]

/-- The size of a written header. -/
lemma length_headerBytes {h : PackageHeader} (hmagic : h.magic.length = 8)
    (hdigest : h.digest.length = kPortableIrDigestSize) :
    (headerBytes h).length = kHeaderSize := by
  simp [headerBytes, hmagic, hdigest, kPortableIrDigestSize, kHeaderSize]

/-- The size of a package's header. -/
lemma length_packageHeader (kind : PortableIrKind) (payload : List Byte) :
    (packageHeader kind payload).length = kHeaderSize := by
  rw [← headerBytes_headerOf]
  exact length_headerBytes rfl (length_packageSha256 _)

/-- The size of a package. -/
lemma length_packageOf (kind : PortableIrKind) (m : Manifest) (body : List Byte) :
    (packageOf kind m body).length = kBodyOffset + body.length := by
  rw [packageOf, List.length_append, length_packageHeader, length_packagePayload, kBodyOffset,
    Nat.add_assoc]

/-- A package begins with its header. -/
lemma take_packageOf (kind : PortableIrKind) (m : Manifest) (body : List Byte) :
    (packageOf kind m body).take kHeaderSize = packageHeader kind (packagePayload m body) :=
  List.take_left' (length_packageHeader _ _)

/-- The payload follows the header. -/
lemma drop_packageOf (kind : PortableIrKind) (m : Manifest) (body : List Byte) :
    (packageOf kind m body).drop kHeaderSize = packagePayload m body :=
  List.drop_left' (length_packageHeader _ _)

/-- A byte is decoded to the kind it is the byte of. -/
lemma decodeKind_eq_some {encoded : Byte} {kind : PortableIrKind} :
    decodeKind encoded = some kind ↔ encoded = kind.code := by
  constructor
  · intro h
    have hcode := List.find?_some h
    simp only [beq_iff_eq] at hcode
    exact hcode.symm
  · rintro rfl
    cases kind <;> decide

/-- A reader of a window of known size that ends with the window. -/
lemma settles_readWindow {α : Type} {bytes : List Byte} {base size : Nat} {r : Reading Status α}
    {P : α → Prop} {encode : α → List Byte}
    (h : Reads (bytes.length - kHeaderSize) r fun a bs => P a ∧ bs = encode a)
    (hsize : ∀ a, P a → (encode a).length = size) (hinside : base + size ≤ bytes.length)
    (hsmall : size < 2 ^ 64) :
    Settles (readWindow bytes base size r) fun p =>
      P p.1 ∧ encode p.1 = (bytes.drop base).take size ∧ p.2 = size := by
  have hfits : Window.Fits ⟨bytes, base, size, bytes.length - kHeaderSize⟩ := ⟨hinside, hsmall⟩
  have hlength : ((bytes.drop base).take size).length = size := by
    rw [List.length_take, List.length_drop]
    omega
  refine ⟨h.safe _ 0 hfits rfl (Nat.zero_le _), fun p => ?_⟩
  unfold readWindow
  rw [show p = (p.1, p.2) from rfl, h.exact _ 0 hfits rfl (Nat.zero_le _)]
  simp only [Window.ahead, Nat.add_zero, Nat.sub_zero, Nat.zero_add]
  constructor
  · rintro ⟨bs, ⟨hP, rfl⟩, hprefix, hoffset⟩
    refine ⟨hP, hprefix.eq_of_length ?_, by rw [hoffset, hsize _ hP]⟩
    rw [hsize _ hP, hlength]
  · rintro ⟨hP, hbytes, hoffset⟩
    exact ⟨_, ⟨hP, rfl⟩, hbytes ▸ List.prefix_refl _, by rw [hoffset, hsize _ hP]⟩

/-- A subtraction that does not wrap gives the difference. -/
lemma settles_subtractSize {a b : Nat} (h : b ≤ a) : Settles (subtractSize a b) (· = a - b) := by
  unfold subtractSize
  rw [if_pos h]
  exact Settles.pure _

/-- Accepted header fields are those that the encoder writes. -/
lemma eq_headerOf {h : PackageHeader} {kind : PortableIrKind} {payload : List Byte}
    (hmagic : h.magic = kMagic)
    (hversion : h.formatVersion = kPortableIrFormatVersion ∧
      h.minimumReaderVersion ≤ kPortableIrFormatVersion ∧ h.minimumReaderVersion ≠ 0)
    (hkind : decodeKind h.kind = some kind) (hflags : h.flags = 0)
    (hsize : h.headerSize.toNat = kHeaderSize)
    (htotal : h.totalSize.toNat = kHeaderSize + payload.length)
    (hpayload : h.payloadSize.toNat = payload.length) (hdigest : packageSha256 payload = h.digest) :
    h = headerOf kind payload := by
  obtain ⟨magic, formatVersion, minimumReaderVersion, kindByte, flags, headerSize, totalSize,
    payloadSize, digest⟩ := h
  obtain ⟨hformat, hle, hne⟩ := hversion
  have hreader : minimumReaderVersion = kPortableIrFormatVersion := by
    simp only [kPortableIrFormatVersion] at hle hne ⊢
    bv_omega
  simp only at hmagic hformat hkind hflags hsize htotal hpayload hdigest
  simp only [headerOf, PackageHeader.mk.injEq]
  refine ⟨hmagic, hformat, hreader, decodeKind_eq_some.mp hkind, hflags, ?_, ?_, ?_, hdigest.symm⟩
  · rw [← hsize, BitVec.ofNat_toNat, BitVec.setWidth_eq]
  · rw [← htotal, BitVec.ofNat_toNat, BitVec.setWidth_eq]
  · rw [← hpayload, BitVec.ofNat_toNat, BitVec.setWidth_eq]

/-- **The envelope**: the parser does not fault, and it accepts exactly the packages whose manifest
is sound and describes the size of the body. -/
theorem settles_parseEnvelope (bytes : List Byte) (limits : PortableIrLimits) :
    Settles (parseEnvelope bytes limits) fun envelope => ∃ kind m body,
      EnvelopeOk limits kind m body.length ∧ bytes = packageOf kind m body ∧
        envelope = envelopeOf kind m body := by
  have hfetch : ∀ payloadSize, kHeaderSize + payloadSize ≤ bytes.length →
      Settles (Reading.fetch ⟨bytes, 0, bytes.length, 0⟩ kHeaderSize payloadSize :
          Except (Failure Status) (List Byte)) (· = (bytes.drop kHeaderSize).take payloadSize) := by
    intro payloadSize hle
    rw [Reads.fetch_eq (by simpa using hle), Nat.zero_add]
    exact Settles.pure _
  have hmanifest : Reads (bytes.length - kHeaderSize) readManifest fun m bs =>
      bs = manifestBytes m := reads_manifest
  unfold parseEnvelope
  refine Settles.congr (Settles.requireThen fun hlimit => Settles.requireThen fun htruncated =>
    (settles_readWindow reads_header (fun h hh => length_headerBytes hh.1 hh.2)
      (by omega) (by decide)).bind fun p hp => Settles.requireThen fun hmagic =>
    Settles.requireThen fun hversion => Settles.requireThen fun hfields =>
    (settles_subtractSize (by omega)).bind fun payloadSize hpayload =>
    Settles.requireThen fun hlengths =>
    (hfetch payloadSize (by omega)).bind fun payload _ => Settles.requireThen fun hdigest =>
    (settles_readWindow (P := fun _ => True)
      (hmanifest.congr fun m bs => (and_iff_right trivial).symm)
      (fun m _ => length_manifestBytes m) (by omega) (by decide)).bind fun q hq =>
    Settles.requireThen fun hschema => Settles.requireThen fun h0 => Settles.requireThen fun h1 =>
    Settles.requireThen fun h2 => Settles.requireThen fun h3 =>
    (Settles.self (validateManifestLimits_safe _ _ _)).bind fun _ _ =>
    (settles_expectedPayloadSize _).bind fun expected hexpected =>
    Settles.requireThen fun hsize =>
    (settles_subtractSize (by unfold kHeaderSize at *; omega)).bind fun bodySize hbody =>
    Settles.pure _) fun envelope => ?_
  constructor
  · rintro ⟨hlimit, htruncated, p, ⟨-, hheader, -⟩, hmagic, hversion, hfields, payloadSize, rfl,
      hlengths, payload, rfl, hdigest, q, ⟨-, hmanifest, -⟩, hschema, h0, h1, h2, h3, u, hlimits,
      expected, hexpected, hsize, bodySize, hbodySize, henvelope⟩
    rw [hexpected.2] at hsize
    obtain ⟨kind, hkind⟩ := Option.isSome_iff_exists.mp hfields.1
    have hpayload : bytes.drop kHeaderSize = packagePayload q.1 (bytes.drop kBodyOffset) := by
      rw [packagePayload, hmanifest, kBodyOffset, ← List.drop_drop, List.take_append_drop]
    have htake : (bytes.drop kHeaderSize).take (bytes.length - kHeaderSize) =
        bytes.drop kHeaderSize := List.take_of_length_le (by rw [List.length_drop])
    have hlength : (packagePayload q.1 (bytes.drop kBodyOffset)).length =
        bytes.length - kHeaderSize := by rw [← hpayload, List.length_drop]
    have hbody : (bytes.drop kBodyOffset).length = bytes.length - kHeaderSize - kManifestSize := by
      rw [List.length_drop, kBodyOffset, Nat.sub_sub]
    rw [htake, hpayload] at hdigest
    have htotal := p.1.totalSize.isLt
    rw [hlengths.1] at htotal
    have hp : p.1 = headerOf kind (packagePayload q.1 (bytes.drop kBodyOffset)) :=
      eq_headerOf hmagic hversion hkind hfields.2.1 hfields.2.2
        (by rw [hlengths.1, hlength]; omega) (by rw [hlengths.2, hlength]) hdigest
    have hoffset : kBodyOffset + (bytes.drop kBodyOffset).length = bytes.length := by
      rw [hbody]
      unfold kBodyOffset
      omega
    rw [hkind, Option.getD_some] at hlimits
    refine ⟨kind, q.1, bytes.drop kBodyOffset, ⟨hschema, ⟨h0, h1, h2, h3⟩, hlimits, ?_, ?_, ?_⟩,
      ?_, ?_⟩
    · rw [hbody]
      omega
    · rw [hoffset]
      exact hlimit
    · rw [hoffset]
      unfold kMaximumSize
      omega
    · rw [packageOf, ← hpayload, ← headerBytes_headerOf, hpayload, ← hp, hheader, ← hpayload,
        List.drop_zero, List.take_append_drop]
    · rw [henvelope, hbodySize, envelopeOf, hlength, hbody, hkind, ← hdigest, Option.getD_some]
  · rintro ⟨kind, m, body, hok, rfl, rfl⟩
    have hlength := length_packageOf kind m body
    have hpayload := length_packagePayload m body
    have hsmall := hok.small
    have hsize := hok.size
    have hbytes := hok.bytes
    have hsub : (packageOf kind m body).length - kHeaderSize = (packagePayload m body).length := by
      rw [hlength, hpayload, kBodyOffset]
      omega
    have hkind : decodeKind (headerOf kind (packagePayload m body)).kind = some kind :=
      decodeKind_eq_some.mpr rfl
    unfold kMaximumSize at hsmall
    unfold kBodyOffset at hlength hsmall hbytes
    refine ⟨by omega, by omega, (headerOf kind (packagePayload m body), kHeaderSize),
      ⟨⟨rfl, length_packageSha256 _⟩, ?_, rfl⟩, rfl, ⟨rfl,
        show kPortableIrFormatVersion ≤ kPortableIrFormatVersion by decide,
        show kPortableIrFormatVersion ≠ 0 by decide⟩, ⟨?_, rfl, rfl⟩, _,
      rfl, ⟨?_, ?_⟩, _, rfl, ?_, (m, kManifestSize), ⟨trivial, ?_, rfl⟩, hok.schema, hok.reserved.1,
      hok.reserved.2.1, hok.reserved.2.2.1, hok.reserved.2.2.2, (), ?_, _, ⟨?_, rfl⟩, ?_, _, rfl,
      ?_⟩
    · rw [List.drop_zero, take_packageOf, headerBytes_headerOf]
    · rw [hkind, Option.isSome_some]
    · rw [hlength]
      simp only [headerOf, BitVec.toNat_ofNat]
      omega
    · rw [hsub]
      simp only [headerOf, BitVec.toNat_ofNat]
      omega
    · rw [drop_packageOf, hsub, List.take_length]
      rfl
    · rw [drop_packageOf, packagePayload, List.take_left' (length_manifestBytes m)]
    · rw [hkind, Option.getD_some]
      exact hok.withinLimits
    · rw [hsize]
      unfold kMaximumSize
      omega
    · rw [hsub, hpayload, hsize]
    · rw [hsub, hkind, envelopeOf, Option.getD_some, hpayload, Nat.add_sub_cancel_left]
      rfl

end UniJit.Ir
