import Argmax.Persistence.UsageScan

/-!
# The hourly table is the sum of the winners

Two facts carry the ledger. The dedupe table records, for every key, the winner
among the stored copies. And each bucket not older than the cutoffs is the sum
over the winners that fall into it. An operation changes the copies of certain
keys only; the winners of those keys fall into the buckets it rebuilds, and the
selection of every other bucket is undisturbed.
-/

namespace Argmax.Persistence.UsageScan

open Argmax.Lib Argmax.Usage

/-! ## The winner of a key -/

theorem outranks_trans (a b c : ContributionRow) (hab : outranks a b = true)
    (hbc : outranks b c = true) : outranks a c = true := by
  simp only [outranks, decide_eq_true_eq] at *
  rcases hab with hab | ⟨hab, hpath⟩
  · rcases hbc with hbc | ⟨hbc, -⟩
    · exact .inl (hbc.trans hab)
    · exact .inl (hbc ▸ hab)
  · rcases hbc with hbc | ⟨hbc, hpath'⟩
    · exact .inl (hab ▸ hbc)
    · exact .inr ⟨hab.trans hbc, hpath.trans hpath'⟩

theorem outranks_total (a b : ContributionRow) : (outranks a b || outranks b a) = true := by
  simp only [outranks, Bool.or_eq_true, decide_eq_true_eq]
  rcases lt_trichotomy a.processedTokens b.processedTokens with h | h | h
  · exact .inr (.inl h)
  · rcases le_total a.sourcePath b.sourcePath with hpath | hpath
    · exact .inl (.inr ⟨h, hpath⟩)
    · exact .inr (.inr ⟨h.symm, hpath⟩)
  · exact .inl (.inl h)

theorem outranks_refl (a : ContributionRow) : outranks a a = true := by
  simpa using outranks_total a a

/-- Copies that outrank each other come from one file. -/
theorem sourcePath_eq_of_outranks {a b : ContributionRow} (hab : outranks a b = true)
    (hba : outranks b a = true) : a.sourcePath = b.sourcePath := by
  simp only [outranks, decide_eq_true_eq] at *
  rcases hab with hab | ⟨heq, hpath⟩
  · rcases hba with hba | ⟨heq, -⟩
    · exact absurd (hab.trans hba) (lt_irrefl _)
    · exact absurd hab (by rw [heq]; exact lt_irrefl _)
  · rcases hba with hba | ⟨-, hpath'⟩
    · exact absurd hba (by rw [heq]; exact lt_irrefl _)
    · exact le_antisymm hpath hpath'

/-- The row outranks every copy of its call. -/
def isWinner (contributions : ContributionTable) (row : ContributionRow) : Bool :=
  contributions.rows.all fun other =>
    other.billedCallKey != row.billedCallKey || outranks row other

variable {contributions : ContributionTable} {row : ContributionRow} {key : String}
  {dedupeKeys : DedupeTable} {s : Ledger}

theorem isWinner_iff :
    isWinner contributions row = true ↔
      ∀ other ∈ contributions, other.billedCallKey = row.billedCallKey →
        outranks row other = true := by
  simp only [isWinner, List.all_eq_true, Bool.or_eq_true, bne_iff_ne]
  exact forall₂_congr fun other _ => by rw [imp_iff_not_or]

/-- Two stored copies of one call in one file are the same row. -/
theorem row_eq {a b : ContributionRow} (ha : a ∈ contributions) (hb : b ∈ contributions)
    (hsource : a.sourcePath = b.sourcePath) (hkey : a.billedCallKey = b.billedCallKey) : a = b :=
  Table.eq_of_key ha hb (Prod.ext hsource hkey)

/-- A call has one winner. -/
theorem winner_unique {a b : ContributionRow} (ha : a ∈ contributions) (hb : b ∈ contributions)
    (hwa : isWinner contributions a = true) (hwb : isWinner contributions b = true)
    (hkey : a.billedCallKey = b.billedCallKey) : a = b := by
  have hab := isWinner_iff.mp hwa b hb hkey.symm
  have hba := isWinner_iff.mp hwb a ha hkey
  exact row_eq ha hb (sourcePath_eq_of_outranks hab hba) hkey

/-- **The query finds the winner.** -/
theorem winnerForKey_eq_some :
    winnerForKey contributions key = some row ↔
      row ∈ contributions ∧ row.billedCallKey = key ∧ isWinner contributions row = true := by
  have hmem : ∀ {row : ContributionRow},
      row ∈ (contributions.rows.filter fun row => row.billedCallKey == key).mergeSort outranks ↔
        row ∈ contributions ∧ row.billedCallKey = key := by
    intro row
    rw [List.mem_mergeSort, List.mem_filter, beq_iff_eq, Table.mem_def]
  have hfound : ∀ {row : ContributionRow}, winnerForKey contributions key = some row →
      row ∈ contributions ∧ row.billedCallKey = key ∧ isWinner contributions row = true := by
    intro row h
    obtain ⟨hrow, hkey⟩ := hmem.mp (List.mem_of_head? h)
    refine ⟨hrow, hkey, isWinner_iff.mpr fun other hother hsame => ?_⟩
    have hsorted := List.pairwise_mergeSort outranks_trans outranks_total
      (contributions.rows.filter fun row => row.billedCallKey == key)
    have hlisted := hmem.mpr ⟨hother, hsame.trans hkey⟩
    rw [List.eq_cons_of_mem_head? h, List.pairwise_cons] at hsorted
    rw [List.eq_cons_of_mem_head? h, List.mem_cons] at hlisted
    rcases hlisted with rfl | hlisted
    · exact outranks_refl _
    · exact hsorted.1 other hlisted
  refine ⟨hfound, ?_⟩
  rintro ⟨hrow, hkey, hwins⟩
  cases hwinner : winnerForKey contributions key with
  | none =>
    have hempty := List.head?_eq_none_iff.mp hwinner
    have hlisted := hmem.mpr ⟨hrow, hkey⟩
    rw [hempty] at hlisted
    cases hlisted
  | some other =>
    obtain ⟨hother, hkey', hwins'⟩ := hfound hwinner
    rw [winner_unique hrow hother hwins hwins' (hkey.trans hkey'.symm)]

theorem winnerForKey_eq_none :
    winnerForKey contributions key = none ↔ ∀ row ∈ contributions, row.billedCallKey ≠ key := by
  rw [winnerForKey, List.head?_eq_none_iff]
  constructor
  · intro h row hrow hkey
    have hlisted : row ∈ (contributions.rows.filter fun row =>
        row.billedCallKey == key).mergeSort outranks := by
      rw [List.mem_mergeSort, List.mem_filter, beq_iff_eq]
      exact ⟨hrow, hkey⟩
    rw [h] at hlisted
    cases hlisted
  · intro h
    refine List.eq_nil_iff_forall_not_mem.mpr fun row hlisted => ?_
    rw [List.mem_mergeSort, List.mem_filter, beq_iff_eq] at hlisted
    exact h row hlisted.1 hlisted.2

/-- Every stored call has a winner. -/
theorem exists_winner (hrow : row ∈ contributions) :
    ∃ winner ∈ contributions, winner.billedCallKey = row.billedCallKey ∧
      isWinner contributions winner = true := by
  cases h : winnerForKey contributions row.billedCallKey with
  | none => exact absurd rfl (winnerForKey_eq_none.mp h row hrow)
  | some winner => exact ⟨winner, winnerForKey_eq_some.mp h⟩

/-- The winner depends on the copies of the call only. -/
theorem winnerForKey_congr {contributions' : ContributionTable}
    (h : ∀ row, row.billedCallKey = key → (row ∈ contributions' ↔ row ∈ contributions)) :
    winnerForKey contributions' key = winnerForKey contributions key := by
  ext row
  rw [winnerForKey_eq_some, winnerForKey_eq_some]
  constructor
  · rintro ⟨hrow, hkey, hwins⟩
    refine ⟨(h row hkey).mp hrow, hkey, isWinner_iff.mpr fun other hother hsame => ?_⟩
    exact isWinner_iff.mp hwins other ((h other (hsame.trans hkey)).mpr hother) hsame
  · rintro ⟨hrow, hkey, hwins⟩
    refine ⟨(h row hkey).mpr hrow, hkey, isWinner_iff.mpr fun other hother hsame => ?_⟩
    exact isWinner_iff.mp hwins other ((h other (hsame.trans hkey)).mp hother) hsame

/-! ## The dedupe table -/

/-- The row the dedupe table should hold for a key. -/
def electedRow (contributions : ContributionTable) (key : String) : Option DedupeRow :=
  (winnerForKey contributions key).map fun winner =>
    ⟨key, winner.sourcePath, winner.hourUtc⟩

/-- The dedupe table is up to date for a key. -/
def Elected (contributions : ContributionTable) (dedupeKeys : DedupeTable) (key : String) : Prop :=
  dedupeKeys.find? key = electedRow contributions key

/-- The elected copy of a call is its winner. -/
theorem isElected_eq (hrow : row ∈ contributions)
    (h : Elected contributions dedupeKeys row.billedCallKey) :
    isElected dedupeKeys row = isWinner contributions row := by
  rw [isElected, h, electedRow]
  cases hwinner : winnerForKey contributions row.billedCallKey with
  | none => exact absurd rfl (winnerForKey_eq_none.mp hwinner row hrow)
  | some winner =>
    obtain ⟨hmem, hkey, hwins⟩ := winnerForKey_eq_some.mp hwinner
    rw [Option.map_some, Option.any_some, Bool.eq_iff_iff, beq_iff_eq]
    constructor
    · intro hsource
      rwa [← row_eq hmem hrow hsource hkey]
    · intro hwins'
      rw [winner_unique hmem hrow hwins hwins' hkey]

theorem winningBucket_eq (h : Elected contributions dedupeKeys key) :
    winningBucket contributions dedupeKeys key =
      (winnerForKey contributions key).map (·.bucket) := by
  have hselected : (contributions.rows.find? fun row =>
      row.billedCallKey == key && isElected dedupeKeys row) = winnerForKey contributions key := by
    ext row
    rw [winnerForKey_eq_some]
    constructor
    · intro hfind
      have hrow : row ∈ contributions := List.mem_of_find?_eq_some hfind
      have hp := List.find?_some hfind
      simp only [Bool.and_eq_true, beq_iff_eq] at hp
      obtain ⟨rfl, helected⟩ := hp
      exact ⟨hrow, rfl, (isElected_eq hrow h).symm.trans helected⟩
    · rintro ⟨hrow, rfl, hwins⟩
      cases hfind : contributions.rows.find? fun other =>
          other.billedCallKey == row.billedCallKey && isElected dedupeKeys other with
      | none =>
        have hnot := List.find?_eq_none.mp hfind row hrow
        simp [isElected_eq hrow h, hwins] at hnot
      | some other =>
        have hother : other ∈ contributions := List.mem_of_find?_eq_some hfind
        have hp := List.find?_some hfind
        simp only [Bool.and_eq_true, beq_iff_eq] at hp
        have hwins' : isWinner contributions other = true := by
          rw [← isElected_eq hother (hp.1.symm ▸ h)]
          exact hp.2
        rw [winner_unique hother hrow hwins' hwins hp.1]
  rw [winningBucket, hselected]

/-- One round of the election brings its key up to date and leaves the others. -/
theorem find?_electKey (contributions : ContributionTable)
    (elected : DedupeTable × List BucketIdentity) (key key' : String) :
    (electKey contributions elected key).1.find? key' =
      if key = key' then electedRow contributions key else elected.1.find? key' := by
  cases hwinner : winnerForKey contributions key with
  | some winner => simp [electKey, electedRow, hwinner]
  | none =>
    simp only [electKey, electedRow, hwinner, Option.map_none, Table.find?_delete]
    by_cases hk : key = key'
    · subst hk
      rw [if_pos rfl, Option.filter_eq_none_iff]
      intro row hrow
      simp [Table.key_of_find? hrow]
    · rw [if_neg hk]
      cases hrow : elected.1.find? key' with
      | none => rfl
      | some row =>
        have hne : row.key ≠ key := fun h => hk (h.symm.trans (Table.key_of_find? hrow))
        simp [hne]

/-- **The election loop** brings every key it visits up to date, and collects the
buckets of their winners. -/
theorem electKeys_spec (contributions : ContributionTable) (keys : List String)
    (elected : DedupeTable × List BucketIdentity) :
    (∀ key, (keys.foldl (electKey contributions) elected).1.find? key =
      if key ∈ keys then electedRow contributions key else elected.1.find? key) ∧
    ∀ bucket, bucket ∈ (keys.foldl (electKey contributions) elected).2 ↔
      bucket ∈ elected.2 ∨
        ∃ key ∈ keys, ∃ winner, winnerForKey contributions key = some winner ∧
          winner.bucket = bucket := by
  induction keys generalizing elected with
  | nil => simp
  | cons key keys ih =>
    obtain ⟨hfind, hbuckets⟩ := ih (electKey contributions elected key)
    have hbucket : (electKey contributions elected key).2 =
        ((winnerForKey contributions key).map (·.bucket)).toList ++ elected.2 := by
      have hup : Elected contributions (electKey contributions elected key).1 key := by
        rw [Elected, find?_electKey, if_pos rfl]
      rw [← winningBucket_eq hup]
      rfl
    refine ⟨fun key' => ?_, fun bucket => ?_⟩
    · rw [List.foldl_cons, hfind, find?_electKey]
      by_cases hmem : key' ∈ keys
      · simp [hmem]
      · by_cases hk : key = key'
        · simp [hk]
        · have hk' : key' ≠ key := fun h => hk h.symm
          simp [hk, hk']
    · rw [List.foldl_cons, hbuckets, hbucket]
      simp only [List.mem_append, Option.mem_toList, Option.map_eq_some_iff,
        List.mem_cons, exists_eq_or_imp]
      rw [or_assoc, or_left_comm]

/-! ## The contributions after a batch -/

theorem filter_upsertContribution {q : ContributionRow → Bool}
    (h : ∀ other, other.copy = row.copy → q other = false) :
    (upsertContribution contributions row).rows.filter q = contributions.rows.filter q := by
  unfold upsertContribution
  split
  · split
    · exact Table.filter_put h
    · rfl
  · exact Table.filter_put h

theorem mem_affectedKeys {sourcePath : String} {keyed : List (String × UsageContribution)}
    {fullReparse : Bool} :
    key ∈ affectedKeys contributions sourcePath keyed fullReparse ↔
      (fullReparse = true ∧ ∃ row ∈ contributions, row.sourcePath = sourcePath ∧
        row.billedCallKey = key) ∨ ∃ entry ∈ keyed, entry.1 = key := by
  rw [affectedKeys]
  cases fullReparse with
  | false => simp
  | true => simp [Table.mem_def, and_assoc]

/-- **A batch changes the copies of the affected calls only**: every selection of other
calls stays as it is. -/
theorem filter_mergeContributions {sourcePath : String} {keyed : List (String × UsageContribution)}
    {fullReparse : Bool} {q : ContributionRow → Bool}
    (hq : ∀ row, row.billedCallKey ∈ affectedKeys contributions sourcePath keyed fullReparse →
      q row = false) :
    (mergeContributions contributions sourcePath keyed fullReparse).rows.filter q =
      contributions.rows.filter q := by
  have hupserts : ∀ (entries : List (String × UsageContribution)) (t : ContributionTable),
      (∀ entry ∈ entries, ∀ row, row.billedCallKey = entry.1 → q row = false) →
        (entries.foldl (fun t entry =>
          upsertContribution t (contributionRow sourcePath entry.1 entry.2)) t).rows.filter q =
            t.rows.filter q := by
    intro entries
    induction entries with
    | nil => exact fun _ _ => rfl
    | cons entry entries ih =>
      intro t h
      obtain ⟨hentry, hentries⟩ := List.forall_mem_cons.mp h
      rw [List.foldl_cons, ih _ hentries]
      refine filter_upsertContribution fun other hother => hentry other ?_
      exact (Prod.mk.inj hother).2
  have hkeyed : ∀ entry ∈ keyed, ∀ row, row.billedCallKey = entry.1 → q row = false :=
    fun entry hentry row hkey =>
      hq row (mem_affectedKeys.mpr (.inr ⟨entry, hentry, hkey.symm⟩))
  rw [mergeContributions, hupserts keyed _ hkeyed]
  split
  · rename_i hfull
    refine Table.filter_delete fun row hrow hsource => hq row ?_
    rw [beq_iff_eq] at hsource
    exact mem_affectedKeys.mpr (.inl ⟨hfull, row, hrow, hsource, rfl⟩)
  · rfl

theorem mem_mergeContributions {sourcePath : String} {keyed : List (String × UsageContribution)}
    {fullReparse : Bool}
    (h : row.billedCallKey ∉ affectedKeys contributions sourcePath keyed fullReparse) :
    row ∈ mergeContributions contributions sourcePath keyed fullReparse ↔ row ∈ contributions := by
  have hfilter : (mergeContributions contributions sourcePath keyed fullReparse).rows.filter
      (fun other => other == row) = contributions.rows.filter fun other => other == row := by
    refine filter_mergeContributions fun other hother => ?_
    rw [beq_eq_false_iff_ne]
    rintro rfl
    exact h hother
  have hiff : ∀ t : ContributionTable,
      row ∈ t ↔ row ∈ t.rows.filter fun other => other == row := by
    simp [Table.mem_def]
  rw [hiff, hfilter, ← hiff]

/-! ## The hourly buckets -/

/-- The contributions a bucket counts: those in it that win their call. -/
def counted (contributions : ContributionTable) (identity : BucketIdentity) :
    List ContributionRow :=
  contributions.rows.filter fun row => isWinner contributions row && row.bucket == identity

theorem mem_counted {identity : BucketIdentity} :
    row ∈ counted contributions identity ↔
      row ∈ contributions ∧ isWinner contributions row = true ∧ row.bucket = identity := by
  rw [counted, List.mem_filter, Bool.and_eq_true, beq_iff_eq, Table.mem_def]

theorem identity_of_hourlyRow {identity : BucketIdentity} {rows : List ContributionRow}
    {row : HourlyRow} (h : hourlyRow identity rows = some row) : row.identity = identity := by
  unfold hourlyRow at h
  split at h
  · cases h
  · cases h
    rfl

/-- A rebuilt bucket is the sum over its winners; the other buckets stay. -/
theorem find?_rebuildBucket
    (h : ∀ row ∈ contributions, Elected contributions dedupeKeys row.billedCallKey)
    (hourly : HourlyTable) (identity identity' : BucketIdentity) :
    (rebuildBucket contributions dedupeKeys hourly identity).find? identity' =
      if identity = identity' then hourlyRow identity (counted contributions identity)
      else hourly.find? identity' := by
  have hcounted : (contributions.rows.filter fun row =>
      isElected dedupeKeys row && row.bucket == identity) = counted contributions identity := by
    refine List.filter_congr fun row hrow => ?_
    rw [isElected_eq hrow (h row hrow)]
  have hcleared : ∀ identity', (hourly.delete fun row => row.identity == identity).find?
      identity' = if identity = identity' then none else hourly.find? identity' := by
    intro identity'
    rw [Table.find?_delete]
    by_cases hid : identity = identity'
    · subst hid
      rw [if_pos rfl, Option.filter_eq_none_iff]
      intro row hrow
      simp [Table.key_of_find? hrow]
    · rw [if_neg hid]
      cases hrow : hourly.find? identity' with
      | none => rfl
      | some row =>
        have hne : row.identity ≠ identity :=
          fun heq => hid (heq.symm.trans (Table.key_of_find? hrow))
        simp [hne]
  simp only [rebuildBucket, hcounted]
  cases hrow : hourlyRow identity (counted contributions identity) with
  | none => exact hcleared identity'
  | some row =>
    rw [Table.find?_put, identity_of_hourlyRow hrow, hcleared]
    by_cases hid : identity = identity' <;> simp [hid]

theorem find?_rebuildBuckets
    (h : ∀ row ∈ contributions, Elected contributions dedupeKeys row.billedCallKey)
    (buckets : List BucketIdentity) (hourly : HourlyTable) (identity : BucketIdentity) :
    (buckets.foldl (rebuildBucket contributions dedupeKeys) hourly).find? identity =
      if identity ∈ buckets then hourlyRow identity (counted contributions identity)
      else hourly.find? identity := by
  induction buckets generalizing hourly with
  | nil => simp
  | cons bucket buckets ih =>
    rw [List.foldl_cons, ih, find?_rebuildBucket h]
    by_cases hmem : identity ∈ buckets
    · simp [hmem]
    · by_cases hid : bucket = identity
      · simp [hid]
      · have hid' : identity ≠ bucket := fun heq => hid heq.symm
        simp [hid, hid']

/-! ## The invariant -/

/-- What holds of the ledger at all times. -/
structure Consistent (s : Ledger) : Prop where
  /-- The dedupe table records the winner of every call. -/
  elected : ∀ key, Elected s.contributions s.dedupeKeys key
  /-- A bucket not older than the cutoffs is the sum over its winners. -/
  hourly : ∀ identity : BucketIdentity,
    (∀ cutoff ∈ s.cutoffs, cutoff ≤ identity.hourUtc) →
    s.hourly.find? identity = hourlyRow identity (counted s.contributions identity)

/-- A selection of a bucket is undisturbed when none of its winners, before or after,
is an affected call. -/
theorem counted_congr {t t' : ContributionTable} {identity : BucketIdentity}
    (affected : String → Prop) [DecidablePred affected]
    (hfilter : ∀ q : ContributionRow → Bool,
      (∀ row, affected row.billedCallKey → q row = false) → t'.rows.filter q = t.rows.filter q)
    (hwinner : ∀ row, ¬ affected row.billedCallKey → isWinner t' row = isWinner t row)
    (hbefore : ∀ row ∈ counted t identity, ¬ affected row.billedCallKey)
    (hafter : ∀ row ∈ counted t' identity, ¬ affected row.billedCallKey) :
    counted t' identity = counted t identity := by
  have hguard : ∀ u : ContributionTable,
      (∀ row ∈ counted u identity, ¬ affected row.billedCallKey) →
        counted u identity = u.rows.filter fun row =>
          !decide (affected row.billedCallKey) && (isWinner u row && row.bucket == identity) := by
    intro u hu
    refine List.filter_congr fun row hrow => ?_
    by_cases hcounted : (isWinner u row && row.bucket == identity) = true
    · have := hu row (List.mem_filter.mpr ⟨hrow, hcounted⟩)
      simp [this]
    · rw [Bool.not_eq_true] at hcounted
      simp [hcounted]
  rw [hguard t' hafter, hguard t hbefore, hfilter _ fun row haff => by simp [haff]]
  refine List.filter_congr fun row _ => ?_
  by_cases haff : affected row.billedCallKey
  · simp [haff]
  · rw [hwinner row haff]

/-- **A batch keeps the ledger consistent.** -/
theorem Consistent.replace (hs : Consistent s) (sourcePath : String) (batchCursor : ℤ)
    (records : List UsageContribution) (fullReparse : Bool) :
    Consistent (replaceSourceContributions s sourcePath batchCursor records fullReparse) := by
  set keyed := keyRecords sourcePath batchCursor 0 records with hkeyed
  set keys := affectedKeys s.contributions sourcePath keyed fullReparse with hkeys
  set t' := mergeContributions s.contributions sourcePath keyed fullReparse with ht'
  set before := keys.filterMap (winningBucket s.contributions s.dedupeKeys) with hbefore
  obtain ⟨hfind, hbuckets⟩ := electKeys_spec t' keys (s.dedupeKeys, before)
  have hmem : ∀ row : ContributionRow, row.billedCallKey ∉ keys →
      (row ∈ t' ↔ row ∈ s.contributions) := fun row hrow => mem_mergeContributions hrow
  have hsame : ∀ key, key ∉ keys →
      winnerForKey t' key = winnerForKey s.contributions key :=
    fun key hkey => winnerForKey_congr fun row hrow => hmem row (hrow ▸ hkey)
  have helected : ∀ key,
      Elected t' (keys.foldl (electKey t') (s.dedupeKeys, before)).1 key := by
    intro key
    rw [Elected, hfind]
    by_cases hkey : key ∈ keys
    · rw [if_pos hkey]
    · rw [if_neg hkey, electedRow, hsame key hkey]
      exact hs.elected key
  refine ⟨helected, fun identity hcutoffs => ?_⟩
  change (List.foldl _ s.hourly _).find? identity = _
  rw [find?_rebuildBuckets fun row _ => helected row.billedCallKey]
  split
  · rfl
  · rename_i hclean
    rw [List.mem_dedup, hbuckets, not_or] at hclean
    rw [hs.hourly identity hcutoffs]
    congr 1
    symm
    refine counted_congr (· ∈ keys) ?_ ?_ ?_ ?_
    · exact fun q hq => filter_mergeContributions hq
    · intro row hrow
      rw [Bool.eq_iff_iff, isWinner_iff, isWinner_iff]
      refine forall_congr' fun other => ⟨fun h hother hkey => ?_, fun h hother hkey => ?_⟩
      · exact h ((hmem other (hkey ▸ hrow)).mpr hother) hkey
      · exact h ((hmem other (hkey ▸ hrow)).mp hother) hkey
    · intro row hrow hkey
      obtain ⟨hstored, hwins, hbucket⟩ := mem_counted.mp hrow
      refine hclean.1 (List.mem_filterMap.mpr ⟨row.billedCallKey, hkey, ?_⟩)
      rw [winningBucket_eq (hs.elected _),
        winnerForKey_eq_some.mpr ⟨hstored, rfl, hwins⟩, Option.map_some, hbucket]
    · intro row hrow hkey
      obtain ⟨hstored, hwins, hbucket⟩ := mem_counted.mp hrow
      exact hclean.2 ⟨row.billedCallKey, hkey, row,
        winnerForKey_eq_some.mpr ⟨hstored, rfl, hwins⟩, hbucket⟩

/-- Pruning keeps every copy of a call that has a retained copy. -/
theorem not_isExpired {beforeHour : ℤ} {kept : ContributionRow} (hkept : kept ∈ contributions)
    (hkey : kept.billedCallKey = row.billedCallKey) (hhour : beforeHour ≤ kept.hourUtc) :
    isExpired contributions beforeHour row = false := by
  have hany : (contributions.rows.any fun retained =>
      retained.billedCallKey == row.billedCallKey && decide (beforeHour ≤ retained.hourUtc)) =
        true := by
    rw [List.any_eq_true]
    exact ⟨kept, hkept, by simp [hkey, hhour]⟩
  simp [isExpired, hany]

/-- Pruning removes all copies of a call or none. -/
theorem mem_prune {beforeHour : ℤ} {other : ContributionRow}
    (hrow : row ∈ contributions.delete (isExpired contributions beforeHour))
    (hother : other ∈ contributions) (hkey : other.billedCallKey = row.billedCallKey) :
    other ∈ contributions.delete (isExpired contributions beforeHour) := by
  obtain ⟨hstored, hkept⟩ := Table.mem_delete.mp hrow
  refine Table.mem_delete.mpr ⟨hother, ?_⟩
  by_cases hhour : beforeHour ≤ row.hourUtc
  · exact not_isExpired hstored hkey.symm hhour
  · simp only [isExpired, Bool.and_eq_false_iff, decide_eq_false_iff_not] at hkept
    rcases hkept with hkept | hkept
    · exact absurd (lt_of_not_ge hhour) hkept
    · rw [Bool.not_eq_false', List.any_eq_true] at hkept
      obtain ⟨kept, hmem, hp⟩ := hkept
      simp only [Bool.and_eq_true, beq_iff_eq, decide_eq_true_eq] at hp
      exact not_isExpired hmem (hp.1.trans hkey.symm) hp.2

theorem Consistent.prune (hs : Consistent s) (beforeHour : ℤ) :
    Consistent (pruneBefore s beforeHour) := by
  set t' := s.contributions.delete (isExpired s.contributions beforeHour) with ht'
  have hsub : ∀ row ∈ t', row ∈ s.contributions := fun row h => (Table.mem_delete.mp h).1
  have hwinner : ∀ row ∈ t', isWinner t' row = isWinner s.contributions row := by
    intro row hrow
    rw [Bool.eq_iff_iff, isWinner_iff, isWinner_iff]
    constructor
    · exact fun h other hother hkey => h other (mem_prune hrow hother hkey) hkey
    · exact fun h other hother hkey => h other (hsub other hother) hkey
  refine ⟨fun key => ?_, fun identity hcutoffs => ?_⟩
  · change (s.dedupeKeys.delete _).find? key = electedRow t' key
    rw [Table.find?_delete, hs.elected key]
    cases hafter : winnerForKey t' key with
    | none =>
      rw [electedRow, electedRow, hafter]
      have hgone := winnerForKey_eq_none.mp hafter
      cases winnerForKey s.contributions key with
      | none => rfl
      | some winner =>
        simpa [Table.mem_def] using hgone
    | some winner =>
      obtain ⟨hmem, hkey, hwins⟩ := winnerForKey_eq_some.mp hafter
      have hold : winnerForKey s.contributions key = some winner :=
        winnerForKey_eq_some.mpr ⟨hsub _ hmem, hkey, (hwinner _ hmem).symm.trans hwins⟩
      have hkept : ∃ copy ∈ t'.rows, copy.billedCallKey = key := ⟨winner, hmem, hkey⟩
      simpa [electedRow, hafter, hold] using hkept
  · have hhour : beforeHour ≤ identity.hourUtc := hcutoffs beforeHour List.mem_cons_self
    have hcounted : counted t' identity = counted s.contributions identity := by
      have hfilter : t'.rows.filter (fun row =>
          isWinner s.contributions row && row.bucket == identity) =
            counted s.contributions identity := by
        refine Table.filter_delete fun row hrow hexpired => ?_
        by_contra hp
        rw [Bool.not_eq_false, Bool.and_eq_true, beq_iff_eq] at hp
        have hrowHour : beforeHour ≤ row.hourUtc := by
          rw [← hp.2] at hhour
          exact hhour
        rw [not_isExpired hrow rfl hrowHour] at hexpired
        cases hexpired
      rw [← hfilter]
      refine List.filter_congr fun row hrow => ?_
      rw [hwinner row hrow]
    change (s.hourly.delete _).find? identity = hourlyRow identity (counted t' identity)
    rw [hcounted, ← hs.hourly identity fun cutoff h => hcutoffs cutoff (List.mem_cons_of_mem _ h),
      Table.find?_delete]
    cases hrow : s.hourly.find? identity with
    | none => rfl
    | some row =>
      have hid := Table.key_of_find? hrow
      simp [hid, hhour]

theorem Consistent.step (hs : Consistent s) (a : Action) : Consistent (step s a) := by
  cases a with
  | replace sourcePath batchCursor records fullReparse =>
    exact hs.replace sourcePath batchCursor records fullReparse
  | forget path =>
    have hreplaced := hs.replace path 0 [] true
    exact ⟨hreplaced.elected, hreplaced.hourly⟩
  | prune beforeHour => exact hs.prune beforeHour

theorem Consistent.empty : Consistent Ledger.empty := by
  refine ⟨fun key => ?_, fun identity _ => rfl⟩
  simp [Elected, electedRow, winnerForKey, Ledger.empty]

/-! ## The ledger is exact -/

/-- What the ledger shows is what its stored copies say. -/
structure Exact (s : Ledger) : Prop where
  /-- A bucket not older than any cutoff is the sum and count over the winners in it, and
  has no row without them. -/
  hourly : ∀ identity : BucketIdentity,
    (∀ cutoff ∈ s.cutoffs, cutoff ≤ identity.hourUtc) →
    s.hourly.find? identity = hourlyRow identity (counted s.contributions identity)
  /-- Every stored call is counted through exactly one copy, in exactly one bucket. -/
  counted_once : ∀ row ∈ s.contributions,
    ∃! place : BucketIdentity × ContributionRow,
      place.2 ∈ counted s.contributions place.1 ∧ place.2.billedCallKey = row.billedCallKey

theorem Consistent.exact (hs : Consistent s) : Exact s := by
  refine ⟨hs.hourly, fun row hrow => ?_⟩
  obtain ⟨winner, hmem, hkey, hwins⟩ := exists_winner hrow
  refine ⟨(winner.bucket, winner), ⟨mem_counted.mpr ⟨hmem, hwins, rfl⟩, hkey⟩, ?_⟩
  rintro ⟨identity, other⟩ ⟨hcounted, hkey'⟩
  dsimp only at hcounted hkey'
  obtain ⟨hother, hwins', rfl⟩ := mem_counted.mp hcounted
  have heq : other = winner :=
    winner_unique hother hmem hwins' hwins (hkey'.trans hkey.symm)
  rw [heq]

/-- **The hourly table is the sum of the winners**, after every sequence of batches,
forgotten files and prunes. -/
theorem hourly_is_sum_of_winners (as : List Action) : Exact (run step .empty as) := by
  have hrun : Consistent (run step .empty as) :=
    run_invariant (fun _ a hs => hs.step a) Consistent.empty as
  exact hrun.exact

end Argmax.Persistence.UsageScan
