/-
# OrmpIndexer.Database.Pattern — the pattern that looks for an id

A rollback finds the signature rows of a block by the beginning of their ids. The ids are made in Rust
(`legacy_event_log_id`), the pattern is made by the server from the anchor of the block. Both have the
block number in ten digits, a dash, the first five digits of the hash in lower case, and a dash.

`{:010}` and `LPAD(.., 10, '0')` are not the same: the first keeps a longer number as it is, the second cuts
it off. The pattern of a block is therefore that of the block whose number its first ten digits spell
(`like_anchorPattern_iff`), and it finds what it should exactly for block numbers of up to ten digits.
-/
import OrmpIndexer.Database
import OrmpIndexer.Foundation.Hex

namespace OrmpIndexer

open Foundation

namespace Postgres

/-! ## Plain hashes

A hash may be any text. On hashes of ASCII characters the server cuts and lowers as the indexer does, and
without wildcards among them the pattern asks for exactly the beginning of an id. -/

/-- A hash of ASCII characters without `LIKE` wildcards. -/
def PlainHash (blockHash : String) : Prop :=
  ∀ c ∈ blockHash.toList, c.toNat < 128 ∧ IsLiteral c.toLower

theorem utf8Size_of_ascii {c : Char} (h : c.toNat < 128) : c.utf8Size = 1 := by
  have : c.val ≤ 0x7f := by
    show c.val.toNat ≤ 127
    change c.val.toNat < 128 at h
    omega
  simp [Char.utf8Size, this]

theorem bytePrefix_of_ascii {l : List Char} (h : ∀ c ∈ l, c.toNat < 128) {n : Nat} (hn : n ≤ l.length) :
    bytePrefix n l = some (l.take n) := by
  induction l generalizing n with
  | nil =>
      obtain rfl : n = 0 := by simpa using hn
      rfl
  | cons c l ih =>
      cases n with
      | zero => rfl
      | succ n =>
          have hc := utf8Size_of_ascii (h c List.mem_cons_self)
          rw [bytePrefix, hc, if_pos (by omega), Nat.add_sub_cancel,
            ih (fun d hd => h d (List.mem_cons_of_mem c hd)) (by simpa using hn)]
          rfl

theorem utf8Length_of_ascii {l : List Char} (h : ∀ c ∈ l, c.toNat < 128) : utf8Length l = l.length := by
  induction l with
  | nil => rfl
  | cons c l ih =>
      have hl := ih fun d hd => h d (List.mem_cons_of_mem c hd)
      rw [utf8Length] at hl
      rw [utf8Length, List.map_cons, List.sum_cons, hl, utf8Size_of_ascii (h c List.mem_cons_self),
        List.length_cons]
      omega

theorem mem_of_stripHexPrefix {l : List Char} {c : Char} (h : c ∈ stripHexPrefix l) : c ∈ l := by
  unfold stripHexPrefix at h
  split at h
  · exact List.mem_cons_of_mem _ (List.mem_cons_of_mem _ h)
  · exact List.mem_cons_of_mem _ (List.mem_cons_of_mem _ h)
  · exact h

/-- The server cuts and lowers a plain hash as the indexer does. -/
theorem anchorHashPrefix_eq (pg : Postgres) {blockHash : String} (h : PlainHash blockHash) :
    pg.anchorHashPrefix blockHash = blockHashPrefix blockHash := by
  have ascii : ∀ c ∈ stripHexPrefix blockHash.toList, c.toNat < 128 :=
    fun c hc => (h c (mem_of_stripHexPrefix hc)).1
  -- every character is one byte, so five bytes are five characters
  have kept : bytePrefix (min (utf8Length (stripHexPrefix blockHash.toList)) 5)
      (stripHexPrefix blockHash.toList) = some ((stripHexPrefix blockHash.toList).take 5) := by
    rw [utf8Length_of_ascii ascii, bytePrefix_of_ascii ascii (by omega),
      Option.some.injEq, List.take_eq_take_iff]
    omega
  rw [anchorHashPrefix, blockHashPrefix, kept, toAsciiLowercase, Option.getD_some,
    String.toList_ofList]
  refine congrArg String.ofList (List.map_congr_left fun c hc => ?_)
  exact pg.locale.lower_ascii c (ascii c (List.mem_of_mem_take hc))

theorem isLiteral_digit {c : Char} (h : c.isDigit = true) : IsLiteral c := by
  refine ⟨?_, ?_, ?_⟩ <;>
  · rintro rfl
    exact absurd h (by decide)

theorem isLiteral_dash : IsLiteral '-' := ⟨by decide, by decide, by decide⟩

/-- What the pattern asks for. -/
def anchorBeginning (anchor : BlockAnchor) : String :=
  lpad (toString anchor.blockNumber) 10 '0' ++ "-" ++ blockHashPrefix anchor.blockHash ++ "-"

theorem toList_anchorBeginning (anchor : BlockAnchor) : (anchorBeginning anchor).toList =
    (decimal (firstDigits 10 anchor.blockNumber)).leftpad 10 '0' ++ '-' ::
      ((blockHashPrefix anchor.blockHash).toList ++ ['-']) := by
  have dash : "-".toList = ['-'] := rfl
  simp only [anchorBeginning, String.toList_append, toList_lpad_toString (show 0 < 10 by decide), dash,
    List.append_assoc, List.cons_append, List.nil_append]

/-- No wildcard before the last character of the pattern. -/
theorem isLiteral_anchorBeginning (pg : Postgres) {anchor : BlockAnchor}
    (hplain : PlainHash anchor.blockHash) : ∀ c ∈ (anchorBeginning anchor).toList, IsLiteral c := by
  intro c hc
  rw [toList_anchorBeginning, List.mem_append, List.mem_cons, List.mem_append] at hc
  rcases hc with hc | rfl | hc | hc
  · exact isLiteral_digit (isDigit_of_mem_leftpad (fun d hd => isDigit_of_mem_decimal hd) hc)
  · exact isLiteral_dash
  · rw [← anchorHashPrefix_eq pg hplain, anchorHashPrefix, String.toList_ofList] at hc
    obtain ⟨d, hd, rfl⟩ := List.mem_map.mp hc
    obtain ⟨hascii, hliteral⟩ := hplain d (mem_of_stripHexPrefix (List.mem_of_mem_take hd))
    rw [pg.locale.lower_ascii d hascii]
    exact hliteral
  · rw [List.mem_singleton.mp hc]
    exact isLiteral_dash

/-- The pattern matches exactly the texts that begin as it asks for. -/
theorem like_anchorPattern (pg : Postgres) {anchor : BlockAnchor} (hplain : PlainHash anchor.blockHash)
    (id : String) :
    like id (pg.anchorPattern anchor) = true ↔ (anchorBeginning anchor).toList <+: id.toList := by
  have hpattern : pg.anchorPattern anchor = anchorBeginning anchor ++ "%" := by
    have hend : "-%" = "-" ++ "%" := rfl
    rw [anchorPattern, anchorBeginning, anchorHashPrefix_eq pg hplain, hend, ← String.append_assoc]
  rw [hpattern, like_append_percent (isLiteral_anchorBeginning pg hplain)]

/-- An anchor selects the signature rows of its own block and fork. -/
theorem anchorSelects_of_hash (pg : Postgres) {anchor : BlockAnchor} {s : SignatureSubmittion}
    (hblock : s.metadata.blockNumber = anchor.blockNumber)
    (hdigits : (decimal anchor.blockNumber).length ≤ 10)
    (hhash : s.metadata.blockHash = some anchor.blockHash) (hplain : PlainHash anchor.blockHash) :
    pg.anchorSelects anchor (.fromEvent s) = true := by
  refine Bool.and_eq_true_iff.mpr ⟨beq_iff_eq.mpr hblock, (like_anchorPattern pg hplain _).mpr ?_⟩
  show _ <+: (legacyEventLogId s.metadata).toList
  rw [toList_anchorBeginning, toList_legacyEventLogId_of_hash hhash, hblock,
    firstDigits_of_length_le hdigits]
  simp [List.prefix_append_right_inj]

/-! ## Hex hashes -/

/-- At least five hex digits, with or without `0x` or `0X`, in any letter case. -/
def HexHash (blockHash : String) : Prop :=
  (stripHexPrefix blockHash.toList).all Char.isHexDigit = true ∧
    5 ≤ (stripHexPrefix blockHash.toList).length

instance (blockHash : String) : Decidable (HexHash blockHash) := inferInstanceAs (Decidable (_ ∧ _))

/-- The first five digits, in lower case. -/
def hashDigits (blockHash : String) : List Char :=
  ((stripHexPrefix blockHash.toList).take 5).map Char.toLower

/-- The same hash, perhaps with another prefix or with digits of another case. -/
def SameHash (blockHash blockHash' : String) : Prop :=
  SameDigits (stripHexPrefix blockHash.toList) (stripHexPrefix blockHash'.toList)

/-- The pattern of an anchor matches the id of every log of its block, and no id of a log that has another
block number or other first digits in its hash. -/
structure FindsItsLogs (pg : Postgres) (anchor : BlockAnchor) : Prop where
  finds : ∀ log blockHash, log.blockHash = some blockHash → log.blockNumber = anchor.blockNumber →
    SameHash blockHash anchor.blockHash → like (legacyEventLogId log) (pg.anchorPattern anchor) = true
  otherBlock : ∀ log blockHash, log.blockHash = some blockHash →
    log.blockNumber ≠ anchor.blockNumber → like (legacyEventLogId log) (pg.anchorPattern anchor) = false
  otherHash : ∀ log blockHash, log.blockHash = some blockHash → HexHash blockHash →
    hashDigits blockHash ≠ hashDigits anchor.blockHash →
    like (legacyEventLogId log) (pg.anchorPattern anchor) = false

theorem mem_or_of_stripHexPrefix {l : List Char} {c : Char} (h : c ∈ l) :
    c ∈ stripHexPrefix l ∨ c ∈ ['0', 'x', 'X'] := by
  have hcut : ∀ {x : Char} {rest : List Char}, x ∈ ['0', 'x', 'X'] → c ∈ '0' :: x :: rest →
      c ∈ rest ∨ c ∈ ['0', 'x', 'X'] := by
    intro x rest hx hmem
    rcases List.mem_cons.mp hmem with rfl | hmem
    · exact .inr List.mem_cons_self
    · rcases List.mem_cons.mp hmem with rfl | hmem
      · exact .inr hx
      · exact .inl hmem
  unfold stripHexPrefix
  split
  · exact hcut (by decide) h
  · exact hcut (by decide) h
  · exact .inl h

theorem HexHash.plain {blockHash : String} (h : HexHash blockHash) : PlainHash blockHash := by
  intro c hc
  rcases mem_or_of_stripHexPrefix hc with hdigit | hprefix
  · apply forall_isHexDigit (P := fun c => c.toNat < 128 ∧ IsLiteral c.toLower) _
      (List.all_eq_true.mp h.1 c hdigit)
    unfold IsLiteral
    decide
  · obtain rfl | rfl | rfl : c = '0' ∨ c = 'x' ∨ c = 'X' := by simpa using hprefix
    all_goals exact ⟨by decide, by decide, by decide, by decide⟩

/-- What the indexer keeps of the hash. -/
theorem toList_blockHashPrefix {blockHash : String} (h : PlainHash blockHash) :
    (blockHashPrefix blockHash).toList = hashDigits blockHash := by
  rw [← anchorHashPrefix_eq legacyStore h, anchorHashPrefix, String.toList_ofList]
  rfl

theorem dash_notMem_hashDigits {blockHash : String} (h : HexHash blockHash) :
    '-' ∉ hashDigits blockHash := by
  intro hmem
  obtain ⟨c, hc, hdash⟩ := List.mem_map.mp hmem
  have hdigit := List.all_eq_true.mp h.1 c (List.mem_of_mem_take hc)
  exact forall_isHexDigit (P := fun c => c.toLower ≠ '-') (by decide) hdigit hdash

theorem SameHash.hashDigits {blockHash blockHash' : String} (h : SameHash blockHash blockHash') :
    hashDigits blockHash = hashDigits blockHash' := by
  rw [Postgres.hashDigits, Postgres.hashDigits, List.map_take, List.map_take, h.map_toLower]

theorem SameHash.hexHash {blockHash blockHash' : String} (h : SameHash blockHash blockHash')
    (hhex : HexHash blockHash') : HexHash blockHash := by
  have hlength := congrArg List.length h
  rw [List.length_map, List.length_map] at hlength
  exact ⟨h.all_isHexDigit.trans hhex.1, hlength ▸ hhex.2⟩

section

variable (pg : Postgres) {anchor : BlockAnchor} {log : ChainLogMetadata} {blockHash : String}

/-- A match has the number that the first ten digits of the anchor's number spell. -/
theorem blockNumber_of_like (hanchor : HexHash anchor.blockHash) (hlog : log.blockHash = some blockHash)
    (h : like (legacyEventLogId log) (pg.anchorPattern anchor) = true) :
    log.blockNumber = firstDigits 10 anchor.blockNumber := by
  have hprefix := (like_anchorPattern pg hanchor.plain _).mp h
  rw [toList_anchorBeginning, toList_legacyEventLogId_of_hash hlog,
    append_sep_prefix_iff (dash_notMem_leftpad 10 _) (dash_notMem_leftpad 10 _)] at hprefix
  exact (leftpad_decimal_inj hprefix.1).symm

/-- Among logs with hex hashes, the pattern finds those with that number and the digits of the anchor. -/
theorem like_anchorPattern_iff (hanchor : HexHash anchor.blockHash)
    (hlog : log.blockHash = some blockHash) (hhex : HexHash blockHash) :
    like (legacyEventLogId log) (pg.anchorPattern anchor) = true ↔
      log.blockNumber = firstDigits 10 anchor.blockNumber ∧
        hashDigits blockHash = hashDigits anchor.blockHash := by
  rw [like_anchorPattern pg hanchor.plain, toList_anchorBeginning,
    toList_legacyEventLogId_of_hash hlog, toList_blockHashPrefix hanchor.plain,
    toList_blockHashPrefix hhex.plain,
    append_sep_prefix_iff (dash_notMem_leftpad 10 _) (dash_notMem_leftpad 10 _),
    append_sep_prefix_iff (dash_notMem_hashDigits hanchor) (dash_notMem_hashDigits hhex)]
  constructor
  · rintro ⟨hnumber, hdigits, -⟩
    exact ⟨(leftpad_decimal_inj hnumber).symm, hdigits.symm⟩
  · rintro ⟨hnumber, hdigits⟩
    exact ⟨by rw [hnumber], hdigits.symm, List.nil_prefix⟩

end

/-- The pattern of a block finds the ids of its logs and no others exactly if the number of the block has at
most ten digits. -/
theorem findsItsLogs_iff (pg : Postgres) (anchor : BlockAnchor) (hhex : HexHash anchor.blockHash) :
    FindsItsLogs pg anchor ↔ anchor.blockNumber < 10 ^ 10 := by
  rw [← firstDigits_eq_self_iff (show 0 < 10 by decide)]
  constructor
  · intro h
    -- a log of the block, with the anchor's own spelling of the hash
    let log : ChainLogMetadata :=
      ⟨"", anchor.chainId, anchor.blockNumber, some anchor.blockHash, 0, "", 0, 0, "", none⟩
    exact (blockNumber_of_like pg hhex rfl (h.finds log _ rfl rfl rfl)).symm
  · intro hnumber
    refine ⟨?_, ?_, ?_⟩
    · intro log blockHash hlog hblock hsame
      rw [like_anchorPattern_iff pg hhex hlog (hsame.hexHash hhex), hnumber]
      exact ⟨hblock, hsame.hashDigits⟩
    · intro log blockHash hlog hblock
      apply Bool.eq_false_of_not_eq_true
      intro hlike
      exact hblock ((blockNumber_of_like pg hhex hlog hlike).trans hnumber)
    · intro log blockHash hlog hloghex hdigits
      apply Bool.eq_false_of_not_eq_true
      intro hlike
      exact hdigits ((like_anchorPattern_iff pg hhex hlog hloghex).mp hlike).2

/-- The last block with ten digits. -/
theorem findsItsLogs_iff_tenDigits : HexHash "0xAbCdE0" ∧
    (FindsItsLogs legacyStore ⟨46, "evm.logs", 9999999999, "0xAbCdE0", none, .latest⟩ ↔
      9999999999 < 10 ^ 10) :=
  ⟨by decide, findsItsLogs_iff legacyStore _ (by decide)⟩

/-- With eleven digits the pattern misses the ids of the block's logs, and finds those of another block. -/
theorem not_findsItsLogs_elevenDigits : HexHash "0xabcde0" ∧
    ¬FindsItsLogs legacyStore ⟨46, "evm.logs", 12345678901, "0xabcde0", none, .latest⟩ ∧
    like (legacyEventLogId ⟨"", 46, 1234567890, some "ABCDE1", 0, "", 0, 7, "", none⟩)
      (legacyStore.anchorPattern ⟨46, "evm.logs", 12345678901, "0xabcde0", none, .latest⟩) = true := by
  refine ⟨by decide, fun h => ?_, ?_⟩
  · have hlike := h.finds ⟨"", 46, 12345678901, some "0xabcde0", 0, "", 0, 7, "", none⟩ _ rfl rfl rfl
    exact absurd (blockNumber_of_like legacyStore (by decide) rfl hlike) (by decide)
  · exact (like_anchorPattern_iff legacyStore (by decide) rfl (by decide)).mpr (by decide)

end Postgres

end OrmpIndexer
