import RtlsdrFt8d.PskReporter

/-!
# Decoding the datagrams of the PSK reporter

`send` fills its buffer with an IPFIX message: the writes put together exactly
the two templates and the data sets that they describe.  A reader that knows
only the information elements gets back what was reported.
-/

namespace RtlsdrFt8d

open NetworkBytes

/-! ## Information elements -/

/-- The enterprise number of the reporter's own elements. -/
def pskEnterprise : Nat := 30351

def fieldValue (record : Ipfix.Record) (enterprise element : Nat) : Option (List UInt8) :=
  (record.find? fun field => field.1.enterprise = enterprise ∧ field.1.element = element).map
    Prod.snd

structure ReceiverFields where
  callsign : List UInt8
  locator : List UInt8
  software : List UInt8
  deriving DecidableEq

def readReceiver (record : Ipfix.Record) : Option ReceiverFields := do
  let callsign ← fieldValue record pskEnterprise 2
  let locator ← fieldValue record pskEnterprise 4
  let software ← fieldValue record pskEnterprise 8
  some ⟨callsign, locator, software⟩

def readSender (record : Ipfix.Record) : Option SenderRecord := do
  let callsign ← fieldValue record pskEnterprise 1
  let frequency ← fieldValue record pskEnterprise 5
  let snr ← fieldValue record pskEnterprise 6
  let mode ← fieldValue record pskEnterprise 10
  let infoSource ← fieldValue record pskEnterprise 11
  let flowStartSeconds ← fieldValue record 0 150
  some ⟨callsign, UInt32.ofNat (ofBigEndian frequency), UInt8.ofNat (ofBigEndian snr), mode,
    UInt8.ofNat (ofBigEndian infoSource), UInt32.ofNat (ofBigEndian flowStartSeconds)⟩

/-- Read a datagram by the templates it carries: its receivers and senders. -/
def decodePacket (packet : List UInt8) :
    Option (List ReceiverFields × List SenderRecord) := do
  let message ← Ipfix.readMessage packet
  let data ← Ipfix.readSets [] message.sets
  let recordsOf (templateId : Nat) : List Ipfix.Record :=
    (data.filter fun set => set.templateId = templateId).flatMap Ipfix.DataSet.records
  let receivers ← (recordsOf 0x9992).mapM readReceiver
  let senders ← (recordsOf 0x9993).mapM readSender
  some (receivers, senders)

/-! ## The records as the templates describe them -/

def SenderRecord.fields (record : SenderRecord) : Ipfix.Record :=
  [(⟨pskEnterprise, 1, Ipfix.variableLength⟩, record.callsign),
    (⟨pskEnterprise, 5, 4⟩, htonl record.frequency),
    (⟨pskEnterprise, 6, 1⟩, [record.snr]),
    (⟨pskEnterprise, 10, Ipfix.variableLength⟩, record.mode),
    (⟨pskEnterprise, 11, 1⟩, [record.infoSource]),
    (⟨0, 150, 4⟩, htonl record.flowTimeSeconds)]

namespace PskReporter

variable (reporter : PskReporter)

def receiver : ReceiverFields where
  callsign := reporter.receiverCallsign
  locator := reporter.receiverGridSquare
  software := reporter.decodingSoftware

def receiverFields : Ipfix.Record :=
  [(⟨pskEnterprise, 2, Ipfix.variableLength⟩, reporter.receiverCallsign),
    (⟨pskEnterprise, 4, Ipfix.variableLength⟩, reporter.receiverGridSquare),
    (⟨pskEnterprise, 8, Ipfix.variableLength⟩, reporter.decodingSoftware)]

def receiverBytes : List UInt8 :=
  Ipfix.encodeRecord reporter.receiverFields

def senderBytes : List UInt8 :=
  reporter.recordList.flatMap fun record => Ipfix.encodeRecord record.fields

end PskReporter

def receiverTemplate : Ipfix.Template where
  templateId := 0x9992
  fields :=
    [⟨pskEnterprise, 2, Ipfix.variableLength⟩, ⟨pskEnterprise, 4, Ipfix.variableLength⟩,
      ⟨pskEnterprise, 8, Ipfix.variableLength⟩]

def senderTemplate : Ipfix.Template where
  templateId := 0x9993
  fields :=
    [⟨pskEnterprise, 1, Ipfix.variableLength⟩, ⟨pskEnterprise, 5, 4⟩, ⟨pskEnterprise, 6, 1⟩,
      ⟨pskEnterprise, 10, Ipfix.variableLength⟩, ⟨pskEnterprise, 11, 1⟩, ⟨0, 150, 4⟩]

theorem readTemplate_rxFormatHeader :
    Ipfix.readAll (Ipfix.readTemplate true) Ipfix.setPadding (rxFormatHeader.drop 4) =
      some [receiverTemplate] := by
  decide +kernel

theorem readTemplate_txFormatHeader :
    Ipfix.readAll (Ipfix.readTemplate false) Ipfix.setPadding (txFormatHeader.drop 4) =
      some [senderTemplate] := by
  decide +kernel

theorem ofNat_ofBigEndian_htonl (value : UInt32) :
    UInt32.ofNat (ofBigEndian (htonl value)) = value := by
  have fits : value.toNat < 256 ^ 4 := value.toNat_lt
  rw [htonl, ofBigEndian_bigEndian, Nat.mod_eq_of_lt fits, UInt32.ofNat_toNat]

theorem ofNat_ofBigEndian_singleton (value : UInt8) :
    UInt8.ofNat (ofBigEndian [value]) = value := by
  simp [ofBigEndian]

theorem readSender_fields (record : SenderRecord) : readSender record.fields = some record := by
  have read : readSender record.fields =
      some ⟨record.callsign, UInt32.ofNat (ofBigEndian (htonl record.frequency)),
        UInt8.ofNat (ofBigEndian [record.snr]), record.mode,
        UInt8.ofNat (ofBigEndian [record.infoSource]),
        UInt32.ofNat (ofBigEndian (htonl record.flowTimeSeconds))⟩ := by
    simp [readSender, fieldValue, SenderRecord.fields, pskEnterprise]
  rw [read, ofNat_ofBigEndian_htonl, ofNat_ofBigEndian_htonl, ofNat_ofBigEndian_singleton,
    ofNat_ofBigEndian_singleton]

theorem readReceiver_receiverFields (reporter : PskReporter) :
    readReceiver reporter.receiverFields = some reporter.receiver := by
  simp [readReceiver, fieldValue, PskReporter.receiverFields, pskEnterprise,
    PskReporter.receiver]

/-! ## The writes -/

theorem encode_eq_write (record : SenderRecord) (packet : List UInt8) (buf : Nat) :
    record.encode packet buf = write packet buf (Ipfix.encodeRecord record.fields) := by
  unfold SenderRecord.encode
  rw [write_write_bind (by simp), write_write_bind (by simp; omega),
    write_write_bind (by simp [htonl]; omega), write_write_bind (by simp [htonl]; omega),
    write_write_bind (by simp [htonl]; omega), write_write_bind (by simp [htonl]; omega),
    write_write (by simp [htonl]; omega)]
  congr 1
  simp [Ipfix.encodeRecord, Ipfix.encodeValue, SenderRecord.fields, Ipfix.variableLength]

theorem length_encodeRecord_fields (record : SenderRecord) :
    (Ipfix.encodeRecord record.fields).length = record.recordSize := by
  simp [Ipfix.encodeRecord, Ipfix.encodeValue, SenderRecord.fields, Ipfix.variableLength,
    SenderRecord.recordSize, htonl]
  omega

theorem encodeRecords_eq_write {records : List SenderRecord} {packet : List UInt8} {buf : Nat}
    (inside : records ≠ [] ∨ buf ≤ packet.length) :
    PskReporter.encodeRecords records packet buf =
      write packet buf (records.flatMap fun record => Ipfix.encodeRecord record.fields) := by
  induction records generalizing packet buf with
  | nil => simp_all [PskReporter.encodeRecords, write]
  | cons record records ih =>
      have adjacent : buf + record.recordSize =
          buf + (Ipfix.encodeRecord record.fields).length := by
        rw [length_encodeRecord_fields]
      rw [PskReporter.encodeRecords, encode_eq_write, List.flatMap_cons, ← write_write adjacent]
      cases written : write packet buf (Ipfix.encodeRecord record.fields) with
      | none => rfl
      | some next =>
          apply ih
          right
          rw [length_of_write written, adjacent]
          exact inside_of_write written

namespace PskReporter

variable (reporter : PskReporter)

theorem encodeReceiverRecord_eq_write (packet : List UInt8) (buf : Nat) :
    reporter.encodeReceiverRecord packet buf =
      write packet buf
        (bigEndian 2 0x9992 ++ (bigEndian 2 reporter.getRxDataSize ++ reporter.receiverBytes)) := by
  unfold encodeReceiverRecord
  rw [write_write_bind (by simp), write_write_bind (by simp), write_write_bind (by simp [htons]),
    write_write_bind (by simp [htons]), write_write_bind (by simp [htons]; omega),
    write_write_bind (by simp [htons]; omega), write_write_bind (by simp [htons]; omega),
    write_write (by simp [htons]; omega)]
  congr 1
  simp [receiverBytes, receiverFields, Ipfix.encodeRecord, Ipfix.encodeValue,
    Ipfix.variableLength, htons, bigEndian]

theorem encodeSenderRecords_eq_write (nonempty : reporter.recordList ≠ [])
    (packet : List UInt8) (buf : Nat) :
    reporter.encodeSenderRecords packet buf =
      write packet buf
        (bigEndian 2 0x9993 ++ (bigEndian 2 reporter.getTxDataSize ++ reporter.senderBytes)) := by
  have notZero : ¬ reporter.recordList.length = 0 := by simpa using nonempty
  rw [encodeSenderRecords, if_neg notZero]
  simp only [encodeRecords_eq_write (Or.inl nonempty)]
  rw [write_write_bind (by simp), write_write_bind (by simp), write_write (by simp [htons])]
  rfl

/-! ## The sizes -/

theorem alignSize_spec (size : Nat) :
    size ≤ alignSize size ∧ 4 ∣ alignSize size ∧ alignSize size ≤ size + 3 := by
  unfold alignSize
  split_ifs <;> omega

theorem length_receiverBytes :
    reporter.receiverBytes.length = (1 + reporter.receiverCallsign.length) +
      (1 + reporter.receiverGridSquare.length) + (1 + reporter.decodingSoftware.length) := by
  simp [receiverBytes, receiverFields, Ipfix.encodeRecord, Ipfix.encodeValue,
    Ipfix.variableLength]
  omega

theorem foldl_recordSize (records : List SenderRecord) (start : Nat) :
    records.foldl (fun size item => size + item.recordSize) start =
      start + (records.flatMap fun record => Ipfix.encodeRecord record.fields).length := by
  induction records generalizing start with
  | nil => rfl
  | cons record records ih =>
      rw [List.foldl_cons, ih, List.flatMap_cons, List.length_append, length_encodeRecord_fields]
      omega

/-- The zero bytes at the end of the receiver set. -/
def rxPadding : Nat :=
  reporter.getRxDataSize - (4 + reporter.receiverBytes.length)

def txPadding : Nat :=
  reporter.getTxDataSize - (4 + reporter.senderBytes.length)

theorem getRxDataSize_eq :
    reporter.getRxDataSize = 4 + reporter.receiverBytes.length + reporter.rxPadding ∧
      4 ∣ reporter.getRxDataSize ∧ reporter.rxPadding ≤ 3 := by
  have content := reporter.length_receiverBytes
  have aligned := alignSize_spec (4 + reporter.receiverBytes.length)
  have size : reporter.getRxDataSize = alignSize (4 + reporter.receiverBytes.length) := by
    rw [getRxDataSize, content]
    simp only [Nat.add_assoc]
  unfold rxPadding
  omega

theorem getTxDataSize_eq (nonempty : reporter.recordList ≠ []) :
    reporter.getTxDataSize = 4 + reporter.senderBytes.length + reporter.txPadding ∧
      4 ∣ reporter.getTxDataSize ∧ reporter.txPadding ≤ 3 := by
  have notZero : ¬ reporter.recordList.length = 0 := by simpa using nonempty
  have aligned := alignSize_spec (4 + reporter.senderBytes.length)
  have size : reporter.getTxDataSize = alignSize (4 + reporter.senderBytes.length) := by
    rw [getTxDataSize, if_neg notZero, foldl_recordSize]
    rfl
  unfold txPadding
  omega

/-! ## The packet -/

/-- The sets of the packet with their contents. -/
def packetSets : List (Nat × List UInt8) :=
  if reporter.recordList = [] then
    [(3, rxFormatHeader.drop 4), (0x9992, reporter.receiverBytes ++ zeros reporter.rxPadding)]
  else
    [(3, rxFormatHeader.drop 4), (2, txFormatHeader.drop 4),
      (0x9992, reporter.receiverBytes ++ zeros reporter.rxPadding),
      (0x9993, reporter.senderBytes ++ zeros reporter.txPadding)]

theorem header_eq (length : Nat) (now sequenceNumber identifier : UInt32) :
    [0x00] ++ [0x0A] ++ htons length ++ htonl now ++ htonl sequenceNumber ++ htonl identifier =
      Ipfix.encodeHeader length now.toNat sequenceNumber.toNat identifier.toNat := by
  simp [Ipfix.encodeHeader, htons, htonl, bigEndian]

theorem receiverSet_eq :
    bigEndian 2 0x9992 ++ (bigEndian 2 reporter.getRxDataSize ++ reporter.receiverBytes) ++
        zeros reporter.rxPadding =
      Ipfix.encodeSet 0x9992 (reporter.receiverBytes ++ zeros reporter.rxPadding) := by
  obtain ⟨size, -, -⟩ := reporter.getRxDataSize_eq
  have contentLength : (reporter.receiverBytes ++ zeros reporter.rxPadding).length + 4 =
      reporter.getRxDataSize := by
    rw [List.length_append, length_zeros]
    omega
  rw [Ipfix.encodeSet, contentLength]
  simp only [List.append_assoc]

theorem senderSet_eq (nonempty : reporter.recordList ≠ []) :
    bigEndian 2 0x9993 ++ (bigEndian 2 reporter.getTxDataSize ++ reporter.senderBytes) ++
        zeros reporter.txPadding =
      Ipfix.encodeSet 0x9993 (reporter.senderBytes ++ zeros reporter.txPadding) := by
  obtain ⟨size, -, -⟩ := reporter.getTxDataSize_eq nonempty
  have contentLength : (reporter.senderBytes ++ zeros reporter.txPadding).length + 4 =
      reporter.getTxDataSize := by
    rw [List.length_append, length_zeros]
    omega
  rw [Ipfix.encodeSet, contentLength]
  simp only [List.append_assoc]

theorem rxFormatHeader_eq : rxFormatHeader = Ipfix.encodeSet 3 (rxFormatHeader.drop 4) := by
  decide

theorem txFormatHeader_eq : txFormatHeader = Ipfix.encodeSet 2 (txFormatHeader.drop 4) := by
  decide

theorem packet_eq_of_empty (empty : reporter.recordList = []) (now : UInt32) :
    reporter.packet now =
      some (Ipfix.encodeHeader reporter.dgSize now.toNat reporter.currentSequenceNumber.toNat
        reporter.randomIdentifier.toNat ++
          reporter.packetSets.flatMap fun set => Ipfix.encodeSet set.1 set.2) := by
  have noSenders : reporter.getTxDataSize = 0 := by simp [getTxDataSize, empty]
  have noRecords (packet : List UInt8) (buf : Nat) :
      reporter.encodeSenderRecords packet buf = some packet := by
    simp [encodeSenderRecords, empty]
  have rxLength : rxFormatHeader.length = 36 := rfl
  obtain ⟨rxSize, -, -⟩ := reporter.getRxDataSize_eq
  have total : reporter.dgSize = 52 + reporter.getRxDataSize := by
    simp only [dgSize, noSenders, if_true, rxLength]
    omega
  unfold packet
  simp only [noSenders, Nat.lt_irrefl, if_false, encodeReceiverRecord_eq_write, noRecords]
  rw [write_write_bind (by simp), write_write_bind (by simp), write_write_bind (by simp [htons]),
    write_write_bind (by simp [htons, htonl]), write_write_bind (by simp [htons, htonl]),
    write_write_bind (by simp [htons, htonl]), write_write_bind (by simp [htons, htonl]; omega),
    header_eq]
  have filled : (Ipfix.encodeHeader reporter.dgSize now.toNat
      reporter.currentSequenceNumber.toNat reporter.randomIdentifier.toNat ++ rxFormatHeader ++
        (bigEndian 2 0x9992 ++ (bigEndian 2 reporter.getRxDataSize ++
          reporter.receiverBytes))).length = 56 + reporter.receiverBytes.length := by
    simp only [List.length_append, Ipfix.length_encodeHeader, rxLength, length_bigEndian]
    omega
  have room : reporter.dgSize - (56 + reporter.receiverBytes.length) = reporter.rxPadding := by
    omega
  rw [write_zeros_start (by omega), filled, room, List.append_assoc _ _ (zeros _),
    receiverSet_eq, packetSets, if_pos empty]
  simp only [List.flatMap_cons, List.flatMap_nil, List.append_nil, ← rxFormatHeader_eq,
    List.append_assoc]
  rfl

theorem packet_eq_of_nonempty (nonempty : reporter.recordList ≠ []) (now : UInt32) :
    reporter.packet now =
      some (Ipfix.encodeHeader reporter.dgSize now.toNat reporter.currentSequenceNumber.toNat
        reporter.randomIdentifier.toNat ++
          reporter.packetSets.flatMap fun set => Ipfix.encodeSet set.1 set.2) := by
  have rxLength : rxFormatHeader.length = 36 := rfl
  have txLength : txFormatHeader.length = 52 := rfl
  obtain ⟨rxSize, -, -⟩ := reporter.getRxDataSize_eq
  obtain ⟨txSize, -, -⟩ := reporter.getTxDataSize_eq nonempty
  have senders : 0 < reporter.getTxDataSize := by omega
  have total : reporter.dgSize = 104 + reporter.getRxDataSize + reporter.getTxDataSize := by
    simp only [dgSize, if_neg senders.ne', rxLength, txLength]
  unfold packet
  simp only [senders, if_true, encodeReceiverRecord_eq_write,
    reporter.encodeSenderRecords_eq_write nonempty]
  rw [write_write_bind (by simp), write_write_bind (by simp), write_write_bind (by simp [htons]),
    write_write_bind (by simp [htons, htonl]), write_write_bind (by simp [htons, htonl]),
    write_write_bind (by simp [htons, htonl]), write_write_bind (by simp [htons, htonl]; omega),
    write_write_bind (by simp [htons, htonl]; omega),
    header_eq]
  have filled : (Ipfix.encodeHeader reporter.dgSize now.toNat
      reporter.currentSequenceNumber.toNat reporter.randomIdentifier.toNat ++ rxFormatHeader ++
        txFormatHeader ++ (bigEndian 2 0x9992 ++ (bigEndian 2 reporter.getRxDataSize ++
          reporter.receiverBytes))).length = 108 + reporter.receiverBytes.length := by
    simp only [List.length_append, Ipfix.length_encodeHeader, rxLength, txLength,
      length_bigEndian]
    omega
  have senderFilled : (bigEndian 2 0x9993 ++ (bigEndian 2 reporter.getTxDataSize ++
      reporter.senderBytes)).length = 4 + reporter.senderBytes.length := by
    simp only [List.length_append, length_bigEndian]
    omega
  have room : reporter.dgSize - (108 + reporter.receiverBytes.length) - reporter.rxPadding -
      (4 + reporter.senderBytes.length) = reporter.txPadding := by
    omega
  rw [write_zeros_start (by omega), filled]
  simp only [Option.bind_eq_bind, Option.bind_some]
  -- the receiver set ends with its padding, where the sender set begins
  have atSenders : 2 + 2 + 4 + 4 + 4 + rxFormatHeader.length + txFormatHeader.length +
      reporter.getRxDataSize = 108 + reporter.receiverBytes.length + reporter.rxPadding := by
    omega
  rw [← filled] at atSenders
  rw [write_zeros (by rw [senderFilled]; omega) atSenders, senderFilled, room,
    List.append_assoc _ _ (zeros reporter.rxPadding), receiverSet_eq,
    List.append_assoc _ _ (zeros reporter.txPadding), reporter.senderSet_eq nonempty,
    packetSets, if_neg nonempty]
  simp only [List.flatMap_cons, List.flatMap_nil, List.append_nil, ← rxFormatHeader_eq,
    ← txFormatHeader_eq, List.append_assoc]

theorem packet_eq (now : UInt32) :
    reporter.packet now =
      some (Ipfix.encodeHeader reporter.dgSize now.toNat reporter.currentSequenceNumber.toNat
        reporter.randomIdentifier.toNat ++
          reporter.packetSets.flatMap fun set => Ipfix.encodeSet set.1 set.2) := by
  by_cases empty : reporter.recordList = []
  · exact reporter.packet_eq_of_empty empty now
  · exact reporter.packet_eq_of_nonempty empty now

/-! ## Reading the packet -/

/-- Strings of at most 254 bytes and a packet of fewer than 65536. -/
structure FitsPacket : Prop where
  callsign : reporter.receiverCallsign.length ≤ 254
  gridSquare : reporter.receiverGridSquare.length ≤ 254
  software : reporter.decodingSoftware.length ≤ 254
  records : ∀ record ∈ reporter.recordList,
    record.callsign.length ≤ 254 ∧ record.mode.length ≤ 254
  total : reporter.dgSize < 65536

variable {reporter}

theorem readRecord_receiverFields (fits : reporter.FitsPacket) (rest : List UInt8) :
    Ipfix.readRecord receiverTemplate.fields (reporter.receiverBytes ++ rest) =
      some (reporter.receiverFields, rest) := by
  have described : receiverTemplate.fields = reporter.receiverFields.map Prod.fst := rfl
  rw [described]
  apply Ipfix.readRecord_encodeRecord
  have callsign := fits.callsign
  have gridSquare := fits.gridSquare
  have software := fits.software
  simp only [receiverFields, List.forall_mem_cons, Ipfix.ValueFits, if_true]
  exact ⟨by omega, by omega, by omega, by simp⟩

theorem readRecord_senderFields (fits : reporter.FitsPacket) {record : SenderRecord}
    (recordMem : record ∈ reporter.recordList) (rest : List UInt8) :
    Ipfix.readRecord senderTemplate.fields (Ipfix.encodeRecord record.fields ++ rest) =
      some (record.fields, rest) := by
  have described : senderTemplate.fields = record.fields.map Prod.fst := rfl
  rw [described]
  apply Ipfix.readRecord_encodeRecord
  obtain ⟨callsign, mode⟩ := fits.records record recordMem
  have fixed (length : Nat) (value : List UInt8) (sameLength : value.length = length)
      (short : length < 5) : Ipfix.ValueFits length value := by
    rw [Ipfix.ValueFits, if_neg (by simp only [Ipfix.variableLength]; omega), sameLength]
  simp only [SenderRecord.fields, List.forall_mem_cons]
  refine ⟨?_, fixed _ _ (by simp [htonl]) (by omega), fixed _ _ rfl (by omega), ?_,
    fixed _ _ rfl (by omega), fixed _ _ (by simp [htonl]) (by omega), by simp⟩
  · rw [Ipfix.ValueFits, if_pos rfl]
    omega
  · rw [Ipfix.ValueFits, if_pos rfl]
    omega

theorem readAll_receiverSet (fits : reporter.FitsPacket) :
    Ipfix.readAll (Ipfix.readRecord receiverTemplate.fields) Ipfix.setPadding
        (reporter.receiverBytes ++ zeros reporter.rxPadding) =
      some [reporter.receiverFields] := by
  obtain ⟨size, aligned, padding⟩ := reporter.getRxDataSize_eq
  have content := reporter.length_receiverBytes
  have fewZeros : reporter.rxPadding ≤ Ipfix.setPadding := padding
  have reads : ∀ receiver ∈ [reporter], ∀ rest,
      Ipfix.readRecord receiverTemplate.fields (receiver.receiverBytes ++ rest) =
        some (receiver.receiverFields, rest) := by
    intro receiver receiverMem rest
    obtain rfl := List.mem_singleton.mp receiverMem
    exact readRecord_receiverFields fits rest
  have long : ∀ receiver ∈ [reporter],
      Ipfix.setPadding < receiver.receiverBytes.length + reporter.rxPadding := by
    intro receiver receiverMem
    obtain rfl := List.mem_singleton.mp receiverMem
    change 3 < receiver.receiverBytes.length + receiver.rxPadding
    omega
  simpa using Ipfix.readAll_flatMap fewZeros reads long

theorem readAll_senderSet (fits : reporter.FitsPacket) (nonempty : reporter.recordList ≠ []) :
    Ipfix.readAll (Ipfix.readRecord senderTemplate.fields) Ipfix.setPadding
        (reporter.senderBytes ++ zeros reporter.txPadding) =
      some (reporter.recordList.map SenderRecord.fields) := by
  obtain ⟨-, -, padding⟩ := reporter.getTxDataSize_eq nonempty
  have fewZeros : reporter.txPadding ≤ Ipfix.setPadding := padding
  apply Ipfix.readAll_flatMap fewZeros
  · intro record recordMem rest
    exact readRecord_senderFields fits recordMem rest
  · intro record recordMem
    rw [length_encodeRecord_fields]
    change 3 < record.recordSize + reporter.txPadding
    unfold SenderRecord.recordSize
    omega

theorem mapM_readSender (records : List SenderRecord) :
    records.mapM (readSender ∘ SenderRecord.fields) = some records := by
  induction records with
  | nil => rfl
  | cons record records ih =>
      rw [List.mapM_cons, Function.comp_apply, readSender_fields, ih]
      rfl

theorem length_receiverSet :
    (Ipfix.rawSet (0x9992, reporter.receiverBytes ++ zeros reporter.rxPadding)).length =
      reporter.getRxDataSize := by
  obtain ⟨size, -, -⟩ := reporter.getRxDataSize_eq
  simp only [Ipfix.rawSet, List.length_append, length_zeros]
  omega

theorem length_senderSet (nonempty : reporter.recordList ≠ []) :
    (Ipfix.rawSet (0x9993, reporter.senderBytes ++ zeros reporter.txPadding)).length =
      reporter.getTxDataSize := by
  obtain ⟨size, -, -⟩ := reporter.getTxDataSize_eq nonempty
  simp only [Ipfix.rawSet, List.length_append, length_zeros]
  omega

theorem length_packet {now : UInt32} {packet : List UInt8}
    (sent : reporter.packet now = some packet) : packet.length = reporter.dgSize := by
  obtain rfl := Option.some.inj (sent.symm.trans (reporter.packet_eq now))
  have rxLength : rxFormatHeader.length = 36 := rfl
  have txLength : txFormatHeader.length = 52 := rfl
  have receiverSet : (reporter.receiverBytes ++ zeros reporter.rxPadding).length + 4 =
      reporter.getRxDataSize := length_receiverSet
  rw [List.length_append, Ipfix.length_encodeHeader]
  unfold packetSets dgSize
  split
  · next empty =>
      have noSenders : reporter.getTxDataSize = 0 := by simp [getTxDataSize, empty]
      simp only [List.flatMap_cons, List.flatMap_nil, List.length_append, Ipfix.length_encodeSet,
        List.length_drop, List.length_nil, rxLength, txLength, noSenders, if_true] at *
      omega
  · next nonempty =>
      have senderSet : (reporter.senderBytes ++ zeros reporter.txPadding).length + 4 =
          reporter.getTxDataSize := length_senderSet nonempty
      have senders : ¬ reporter.getTxDataSize = 0 := by omega
      simp only [List.flatMap_cons, List.flatMap_nil, List.length_append, Ipfix.length_encodeSet,
        List.length_drop, List.length_nil, rxLength, txLength, if_neg senders] at *
      omega

theorem readMessage_packet (fits : reporter.FitsPacket) {now : UInt32} {packet : List UInt8}
    (sent : reporter.packet now = some packet) :
    Ipfix.readMessage packet =
      some ⟨reporter.dgSize, now.toNat, reporter.currentSequenceNumber.toNat,
        reporter.randomIdentifier.toNat, reporter.packetSets.map Ipfix.rawSet⟩ := by
  have length := length_packet sent
  obtain rfl := Option.some.inj (sent.symm.trans (reporter.packet_eq now))
  apply Ipfix.readMessage_encode now.toNat_lt (UInt32.toNat_lt _) (UInt32.toNat_lt _) _ fits.total
  · rw [← length, List.length_append, Ipfix.length_encodeHeader]
  · unfold packetSets
    split <;> simp

theorem readSets_packetSets (fits : reporter.FitsPacket) :
    Ipfix.readSets [] (reporter.packetSets.map Ipfix.rawSet) =
      some (⟨0x9992, [reporter.receiverFields]⟩ ::
        if reporter.recordList = [] then []
        else [⟨0x9993, reporter.recordList.map SenderRecord.fields⟩]) := by
  have learnsReceiver (sets : List Ipfix.RawSet) :
      Ipfix.readSets [] (Ipfix.rawSet (3, rxFormatHeader.drop 4) :: sets) =
        Ipfix.readSets [receiverTemplate] sets :=
    Ipfix.readSets_of_template (Ipfix.rawSet (3, rxFormatHeader.drop 4)) (Or.inr rfl)
      readTemplate_rxFormatHeader
  have learnsSender (sets : List Ipfix.RawSet) :
      Ipfix.readSets [receiverTemplate] (Ipfix.rawSet (2, txFormatHeader.drop 4) :: sets) =
        Ipfix.readSets [senderTemplate, receiverTemplate] sets :=
    Ipfix.readSets_of_template (Ipfix.rawSet (2, txFormatHeader.drop 4)) (Or.inl rfl)
      readTemplate_txFormatHeader
  have receiverSet := readAll_receiverSet fits
  unfold packetSets
  split
  · rw [List.map_cons, learnsReceiver, List.map_cons,
      Ipfix.readSets_of_data (Ipfix.rawSet _) (by simp [Ipfix.rawSet]) rfl receiverSet]
    rfl
  · next nonempty =>
      rw [List.map_cons, learnsReceiver, List.map_cons, learnsSender, List.map_cons,
        Ipfix.readSets_of_data (Ipfix.rawSet _) (by simp [Ipfix.rawSet]) rfl receiverSet,
        List.map_cons, Ipfix.readSets_of_data (Ipfix.rawSet _) (by simp [Ipfix.rawSet]) rfl
          (readAll_senderSet fits nonempty)]
      rfl

theorem decodePacket_packet (fits : reporter.FitsPacket) {now : UInt32} {packet : List UInt8}
    (sent : reporter.packet now = some packet) :
    decodePacket packet = some ([reporter.receiver], reporter.recordList) := by
  unfold decodePacket
  rw [readMessage_packet fits sent]
  simp only [Option.bind_eq_bind, Option.bind_some]
  rw [readSets_packetSets fits]
  by_cases empty : reporter.recordList = []
  · simp [empty, readReceiver_receiverFields]
  · simp [empty, readReceiver_receiverFields, mapM_readSender]

variable (reporter) in
/-- The packet is a message of the allocated length, its set lengths are right
and aligned, and a reader of the message gets the reported values. -/
structure ReportsBack (packet : List UInt8) (message : Ipfix.Message) : Prop where
  allocated : packet.length = reporter.dgSize
  isMessage : Ipfix.readMessage packet = some message
  headerLength : message.length = packet.length
  setLengths : ∀ set ∈ message.sets, set.length = set.content.length + 4 ∧ 4 ∣ set.length
  setIds : message.sets.map Ipfix.RawSet.setId =
    if reporter.recordList = [] then [3, 0x9992] else [3, 2, 0x9992, 0x9993]
  decodes : decodePacket packet = some ([reporter.receiver], reporter.recordList)

theorem setLengths_packetSets :
    ∀ set ∈ reporter.packetSets.map Ipfix.rawSet,
      set.length = set.content.length + 4 ∧ 4 ∣ set.length := by
  have rxAligned : 4 ∣ (Ipfix.rawSet (3, rxFormatHeader.drop 4)).length := by decide
  have txAligned : 4 ∣ (Ipfix.rawSet (2, txFormatHeader.drop 4)).length := by decide
  obtain ⟨-, receiverAligned, -⟩ := reporter.getRxDataSize_eq
  rw [← length_receiverSet] at receiverAligned
  unfold packetSets
  split
  · simp only [List.map_cons, List.map_nil, List.forall_mem_cons]
    exact ⟨⟨rfl, rxAligned⟩, ⟨rfl, receiverAligned⟩, by simp⟩
  · next nonempty =>
      obtain ⟨-, senderAligned, -⟩ := reporter.getTxDataSize_eq nonempty
      rw [← length_senderSet nonempty] at senderAligned
      simp only [List.map_cons, List.map_nil, List.forall_mem_cons]
      exact ⟨⟨rfl, rxAligned⟩, ⟨rfl, txAligned⟩, ⟨rfl, receiverAligned⟩,
        ⟨rfl, senderAligned⟩, by simp⟩

/-- Datagrams decode back to what was reported. -/
theorem send_reportsBack (reporter : PskReporter) (now : UInt32) (fits : reporter.FitsPacket) :
    ∃ packet message, (reporter.send now).2 = some packet ∧
      reporter.ReportsBack packet message := by
  obtain ⟨packet, sent⟩ : ∃ packet, reporter.packet now = some packet :=
    ⟨_, reporter.packet_eq now⟩
  have length := length_packet sent
  refine ⟨packet, _, sent, length, readMessage_packet fits sent, length.symm,
    setLengths_packetSets, ?_, decodePacket_packet fits sent⟩
  unfold packetSets
  split <;> rfl

end PskReporter

/-- The receiver reports one station. -/
def sampleReporter : PskReporter :=
  PskReporter.addReceiveRecord
    { currentSequenceNumber := 0
      randomIdentifier := 1804289383
      receiverCallsign := asciiBytes "SA0PRF".toList
      receiverGridSquare := asciiBytes "JO99".toList
      decodingSoftware := asciiBytes "rtlsdr-ft8d_v0.8.9".toList
      recordList := [] }
    (asciiBytes "F1ABC".toList) 14075000 249 1700000000

theorem send_reportsBack_sampleReporter :
    ∃ packet message, (sampleReporter.send 1700000015).2 = some packet ∧
      sampleReporter.ReportsBack packet message :=
  sampleReporter.send_reportsBack 1700000015
    ⟨by decide, by decide, by decide, by decide, by decide⟩

end RtlsdrFt8d
