/-
# Sidecars beside their payloads

The path of a sidecar is that of its payload with the extension `JSON`.  What arrives under a
name that has this extension is overwritten by its own metadata; everything else has two paths.
-/
import Emwin.Lib.PaddedDigits
import Emwin.Lib.Words
import Emwin.Live.StoragePlan

namespace Live

open Calendar Chrono

variable {directory leaf stem file : Str}

/-! ## File names -/

/-- The components of a path behind a separator. -/
theorem splitOn_append_slash (directory leaf : Str) :
    (directory ++ '/' :: leaf).splitOn '/' = directory.splitOn '/' ++ leaf.splitOn '/' :=
  List.splitOnP_append_cons _ _ (by rfl)

/-- The file name of a path with a name at the end. -/
theorem fileName_append (hne : leaf ≠ []) (hslash : '/' ∉ leaf) (hdot : leaf.head? ≠ some '.') :
    fileName (directory ++ '/' :: leaf) = some leaf := by
  have hsplit : leaf.splitOn '/' = [leaf] := by
    refine List.splitOnP_eq_singleton fun c hc => ?_
    simpa using ne_of_mem_of_not_mem hc hslash
  have hkept : [leaf].filter (fun c => decide (c ≠ [] ∧ c ≠ ['.'])) = [leaf] := by
    refine List.filter_cons_of_pos (decide_eq_true ⟨hne, ?_⟩)
    rintro rfl
    exact hdot rfl
  rw [fileName, splitOn_append_slash, hsplit, List.filter_append, hkept, List.getLast?_concat]
  split
  · next heq => exact absurd (congrArg List.head? (Option.some.inj heq)) hdot
  · rfl

/-- A name without a dot has no extension. -/
theorem extension_of_no_dot (h : '.' ∉ leaf) (hne : ∃ c rest, leaf = c :: rest ∧ c ≠ '/') :
    extension (directory ++ '/' :: leaf) = none := by
  obtain ⟨c, rest, rfl, hc⟩ := hne
  -- the first component of the name is not empty, so the last of the path belongs to the name
  have hkept : (((c :: rest).splitOn '/').filter fun c => decide (c ≠ [] ∧ c ≠ ['.'])) ≠ [] := by
    intro hnil
    have hmem : c ∈ ((c :: rest).splitOn '/').flatten := by
      rw [List.splitOn, Str.flatten_splitOnP]
      exact List.mem_filter.mpr ⟨List.mem_cons_self, by simpa using hc⟩
    obtain ⟨piece, hpiece, hcp⟩ := List.mem_flatten.mp hmem
    have hrejected := List.filter_eq_nil_iff.mp hnil piece hpiece
    rw [decide_eq_true_eq, not_and_or, not_not, not_not] at hrejected
    rcases hrejected with rfl | rfl
    · cases hcp
    · exact h ((Str.mem_of_mem_splitOnP hpiece List.mem_cons_self).1)
  obtain ⟨file, hfile⟩ : ∃ file, (((c :: rest).splitOn '/').filter
      fun c => decide (c ≠ [] ∧ c ≠ ['.'])).getLast? = some file :=
    ⟨_, List.getLast?_eq_getLast_of_ne_nil hkept⟩
  have hdot : '.' ∉ file := fun hmem =>
    h (Str.mem_of_mem_splitOnP (List.mem_filter.mp (List.mem_of_getLast? hfile)).1 hmem).1
  have hname : fileName (directory ++ '/' :: c :: rest) = some file := by
    rw [fileName, splitOn_append_slash, List.filter_append, List.getLast?_append_of_ne_nil _ hkept,
      hfile]
    split
    · next heq =>
        obtain rfl := Option.some.inj heq
        exact absurd List.mem_cons_self hdot
    · rfl
  rw [extension, hname, Option.bind_some, splitFileAtDot, Str.rsplitOnce, if_neg hdot]

/-- The stem and the extension of a name. -/
theorem splitFileAtDot_append {e : Str} (hstem : stem ≠ []) (he : '.' ∉ e) :
    splitFileAtDot (stem ++ '.' :: e) = (stem, some e) := by
  rw [splitFileAtDot, Str.rsplitOnce_append he]
  dsimp only
  rw [if_neg hstem]

/-- A path that ends with two characters of a name ends where its name does. -/
theorem dropTail_of_name {c d : Char} (hc : c ≠ '/') (hd : d ≠ '/') (rest : List Char) :
    dropTail (c :: d :: rest) = c :: d :: rest := by
  unfold dropTail
  split
  · next heq => exact absurd (List.cons.inj heq).1 hc
  · next heq => exact absurd (List.cons.inj (List.cons.inj heq).2).1 hd
  · rfl

/-- **Extensions.**  A new extension takes the place of the old one. -/
theorem withExtension_append {e : Str} (hstem : stem ≠ []) (hslash : '/' ∉ stem ++ '.' :: e)
    (hdot : stem.head? ≠ some '.') (he : '.' ∉ e) (new : Str) :
    withExtension (directory ++ '/' :: (stem ++ '.' :: e)) new =
      directory ++ '/' :: (stem ++ '.' :: new) := by
  have hhead : (stem ++ '.' :: e).head? ≠ some '.' := by
    rwa [List.head?_append_of_ne_nil _ hstem]
  have hname : fileName (directory ++ '/' :: (stem ++ '.' :: e)) = some (stem ++ '.' :: e) :=
    fileName_append (by simp) hslash hhead
  -- read backwards, the path begins with two characters of the name
  have hkept : (dropTail (directory ++ '/' :: (stem ++ '.' :: e)).reverse).reverse =
      directory ++ '/' :: (stem ++ '.' :: e) := by
    have hreverse : (directory ++ '/' :: (stem ++ '.' :: e)).reverse =
        (stem ++ '.' :: e).reverse ++ '/' :: directory.reverse := by simp
    have hmem : ∀ c ∈ (stem ++ '.' :: e).reverse, c ≠ '/' := by
      intro c hc
      exact ne_of_mem_of_not_mem (List.mem_reverse.mp hc) hslash
    have hlen : 2 ≤ (stem ++ '.' :: e).reverse.length := by
      have := List.length_pos_iff.mpr hstem
      simp only [List.length_reverse, List.length_append, List.length_cons]
      omega
    rw [hreverse]
    match hrev : (stem ++ '.' :: e).reverse, hlen, hmem with
    | c :: d :: rest, _, hmem =>
        have hdrop := dropTail_of_name (hmem c List.mem_cons_self)
          (hmem d (List.mem_cons_of_mem _ List.mem_cons_self)) (rest ++ '/' :: directory.reverse)
        rw [List.cons_append, List.cons_append, hdrop, ← List.cons_append, ← List.cons_append,
          ← hrev, ← hreverse, List.reverse_reverse]
  have hsplit : directory ++ '/' :: (stem ++ '.' :: e) =
      (directory ++ '/' :: stem) ++ '.' :: e := by
    simp
  have hlength : (directory ++ '/' :: (stem ++ '.' :: e)).length -
      ((stem ++ '.' :: e).length - stem.length) = (directory ++ '/' :: stem).length := by
    simp only [List.length_append, List.length_cons]
    omega
  rw [withExtension, hname]
  dsimp only
  rw [hkept, splitFileAtDot_append hstem he, hlength, hsplit, List.take_left, List.append_assoc,
    List.cons_append]

/-! ## The last segment -/

/-- A name has no separator, or no dot. -/
theorem basenameSegment_cases (filename : Str) :
    '/' ∉ basenameSegment filename ∨ '.' ∉ basenameSegment filename := by
  unfold basenameSegment
  cases hfind : (filename.splitOnP fun c => c = '/' ∨ c = '\\').reverse.find?
      fun segment => segment ≠ [] with
  | some segment =>
      left
      intro hslash
      have hmem := List.mem_reverse.mp (List.mem_of_find?_eq_some hfind)
      have := (Str.mem_of_mem_splitOnP hmem hslash).2
      exact absurd this (by decide)
  | none =>
      -- all segments are empty, so there are separators only
      right
      intro hdot
      have hmem : '.' ∈ (filename.splitOnP fun c => c = '/' ∨ c = '\\').flatten := by
        rw [Str.flatten_splitOnP]
        exact List.mem_filter.mpr ⟨hdot, by decide⟩
      obtain ⟨segment, hsegment, hc⟩ := List.mem_flatten.mp hmem
      have hempty := List.find?_eq_none.mp hfind segment (List.mem_reverse.mpr hsegment)
      rw [decide_eq_true_eq, not_not] at hempty
      rw [hempty] at hc
      cases hc

/-! ## Sidecars -/

/-- A name with its time and its checksum in front. -/
def leafStem (data : List UInt8) (metadata : CompletedFileMetadata) : Str :=
  let timestamp := timestampUtc metadata.timestampUtc
  let day := date timestamp
  printYear day.year ++ padded 2 day.month ++ padded 2 day.day ++ "T".toList ++
    padded 2 (hour timestamp) ++ padded 2 (minute timestamp) ++ padded 2 (second timestamp) ++
    "Z".toList ++ "-".toList ++ crc32Hex data ++ "-".toList

/-- The directory of a payload. -/
def payloadDirectory (metadata : CompletedFileMetadata) : Str :=
  let day := date (timestampUtc metadata.timestampUtc)
  let office := (metadata.productSummary.office.filter fun code => code ≠ []).getD "UNK".toList
  let family := metadata.productSummary.family.getD "unknown".toList
  originSegment metadata.origin ++ "/".toList ++ printYear day.year ++ "/".toList ++
    padded 2 day.month ++ "/".toList ++ padded 2 day.day ++ "/".toList ++ office ++ "/".toList ++
    family

/-- The payload of a plan stands in its directory. -/
theorem payloadRelativePath_eq (filename : Str) (data : List UInt8)
    (metadata : CompletedFileMetadata) :
    (buildArchiveStoragePlan filename data metadata).payloadRelativePath =
      payloadDirectory metadata ++ '/' :: (leafStem data metadata ++ basenameSegment filename) := by
  simp [buildArchiveStoragePlan, payloadDirectory, leafStem]

/-- The sidecar's path is that of the payload with another extension. -/
theorem metadataRelativePath_eq (filename : Str) (data : List UInt8)
    (metadata : CompletedFileMetadata) :
    (buildArchiveStoragePlan filename data metadata).metadataRelativePath =
      (metadataSidecarPath [] (payloadDirectory metadata ++
        '/' :: (leafStem data metadata ++ basenameSegment filename))).dropWhile (· = '/') := by
  rw [← payloadRelativePath_eq]
  rfl

/-- A character of a name that neither separates components nor extensions. -/
def IsPlain (c : Char) : Prop := c ≠ '/' ∧ c ≠ '.'

theorem isPlain_of_isDigit {c : Char} (h : c.isDigit = true) : IsPlain c :=
  ⟨Str.ne_of_isDigit h rfl, Str.ne_of_isDigit h rfl⟩

theorem isPlain_of_mem_padded {width n : ℕ} : ∀ c ∈ padded width n, IsPlain c :=
  fun _ hc => isPlain_of_isDigit (Str.isDigit_of_mem_padded hc)

theorem isPlain_of_mem_printYear {year : ℤ} : ∀ c ∈ printYear year, IsPlain c := by
  unfold printYear
  split_ifs
  · exact List.forall_mem_cons.mpr ⟨⟨by decide, by decide⟩, isPlain_of_mem_padded⟩
  · exact List.forall_mem_cons.mpr ⟨⟨by decide, by decide⟩, isPlain_of_mem_padded⟩
  · exact isPlain_of_mem_padded

theorem isPlain_of_mem_crc32Hex (data : List UInt8) : ∀ c ∈ crc32Hex data, IsPlain c := by
  intro c hc
  rcases List.mem_append.mp hc with hc | hc
  · rw [List.eq_of_mem_replicate hc]
    exact ⟨by decide, by decide⟩
  · obtain ⟨d, rfl⟩ := Str.exists_digitChar_of_mem_toDigits (by decide) hc
    exact ⟨Nat.digitChar_ne _ (by decide), Nat.digitChar_ne _ (by decide)⟩

/-- The time and the checksum in front of a name are plain. -/
theorem isPlain_of_mem_leafStem (data : List UInt8) (metadata : CompletedFileMetadata) :
    ∀ c ∈ leafStem data metadata, IsPlain c := by
  have hletter : ∀ text ∈ ["T".toList, "Z".toList, "-".toList], ∀ c ∈ text, IsPlain c := by
    unfold IsPlain
    decide
  unfold leafStem
  dsimp only
  simp only [List.forall_mem_append]
  exact ⟨⟨⟨⟨⟨⟨⟨⟨⟨⟨isPlain_of_mem_printYear, isPlain_of_mem_padded⟩, isPlain_of_mem_padded⟩,
    hletter _ (by decide)⟩, isPlain_of_mem_padded⟩, isPlain_of_mem_padded⟩, isPlain_of_mem_padded⟩,
    hletter _ (by decide)⟩, hletter _ (by decide)⟩, isPlain_of_mem_crc32Hex data⟩,
    hletter _ (by decide)⟩

theorem leafStem_ne_nil (data : List UInt8) (metadata : CompletedFileMetadata) :
    leafStem data metadata ≠ [] := by
  unfold leafStem
  dsimp only
  exact List.append_ne_nil_of_right_ne_nil _ (by decide)

/-- A payload stands in a directory, so its path begins with no separator. -/
theorem dropWhile_payloadDirectory (metadata : CompletedFileMetadata) (s : Str) :
    (payloadDirectory metadata ++ s).dropWhile (· = '/') = payloadDirectory metadata ++ s := by
  have hhead : ∃ c rest, payloadDirectory metadata = c :: rest ∧ c ≠ '/' := by
    unfold payloadDirectory
    dsimp only
    simp only [List.append_assoc]
    cases metadata.origin
    · exact ⟨'q', _, rfl, by decide⟩
    · exact ⟨'w', _, rfl, by decide⟩
    · exact ⟨'u', _, rfl, by decide⟩
  obtain ⟨c, rest, hdirectory, hc⟩ := hhead
  rw [hdirectory, List.cons_append, List.dropWhile_cons, if_neg (by simpa using hc)]

/-- The sidecar of a name without an extension. -/
theorem sidecar_of_no_dot {filename : Str} (h : '.' ∉ basenameSegment filename)
    (data : List UInt8) (metadata : CompletedFileMetadata) :
    (buildArchiveStoragePlan filename data metadata).metadataRelativePath =
      (buildArchiveStoragePlan filename data metadata).payloadRelativePath ++ ".JSON".toList := by
  have hplain := isPlain_of_mem_leafStem data metadata
  obtain ⟨c, rest, hstem⟩ := List.exists_cons_of_ne_nil (leafStem_ne_nil data metadata)
  have hdot : '.' ∉ leafStem data metadata ++ basenameSegment filename := by
    intro hmem
    rcases List.mem_append.mp hmem with hmem | hmem
    · exact (hplain _ hmem).2 rfl
    · exact h hmem
  have hnone : extension (payloadDirectory metadata ++
      '/' :: (leafStem data metadata ++ basenameSegment filename)) = none := by
    refine extension_of_no_dot hdot ⟨c, rest ++ basenameSegment filename, by rw [hstem]; rfl, ?_⟩
    exact (hplain c (by rw [hstem]; exact List.mem_cons_self)).1
  rw [metadataRelativePath_eq, payloadRelativePath_eq, metadataSidecarPath, join,
    if_pos (Or.inr rfl), hnone]
  dsimp only
  rw [List.append_assoc, dropWhile_payloadDirectory]

/-- The sidecar of a name with an extension. -/
theorem sidecar_of_extension {filename front e : Str}
    (hname : basenameSegment filename = front ++ '.' :: e) (he : '.' ∉ e)
    (hslash : '/' ∉ basenameSegment filename) (data : List UInt8)
    (metadata : CompletedFileMetadata) :
    (buildArchiveStoragePlan filename data metadata).metadataRelativePath =
      payloadDirectory metadata ++
        '/' :: (leafStem data metadata ++ front ++ '.' :: "JSON".toList) := by
  have hplain := isPlain_of_mem_leafStem data metadata
  have hne := leafStem_ne_nil data metadata
  have hstem : leafStem data metadata ++ front ≠ [] := List.append_ne_nil_of_left_ne_nil hne _
  have hhead : (leafStem data metadata ++ front).head? ≠ some '.' := by
    rw [List.head?_append_of_ne_nil _ hne]
    intro hdot
    exact (hplain _ (List.mem_of_head? hdot)).2 rfl
  have hleaf : leafStem data metadata ++ basenameSegment filename =
      leafStem data metadata ++ front ++ '.' :: e := by
    rw [hname, List.append_assoc]
  have hnoslash : '/' ∉ leafStem data metadata ++ front ++ '.' :: e := by
    rw [← hleaf]
    intro hmem
    rcases List.mem_append.mp hmem with hmem | hmem
    · exact (hplain _ hmem).1 rfl
    · exact hslash hmem
  have hfile : (leafStem data metadata ++ front ++ '.' :: e).head? ≠ some '.' := by
    rwa [List.head?_append_of_ne_nil _ hstem]
  have hextension : extension (payloadDirectory metadata ++
      '/' :: (leafStem data metadata ++ front ++ '.' :: e)) = some e := by
    rw [extension, fileName_append (by simp) hnoslash hfile, Option.bind_some,
      splitFileAtDot_append hstem he]
  rw [metadataRelativePath_eq, hleaf, metadataSidecarPath, join, if_pos (Or.inr rfl), hextension]
  dsimp only
  rw [withExtension_append hstem hnoslash hhead he, dropWhile_payloadDirectory]

/-- **Two paths.**  A payload and its sidecar have different paths exactly if the name does not
end with `.JSON`. -/
theorem payload_ne_metadata_iff (filename : Str) (data : List UInt8)
    (metadata : CompletedFileMetadata) :
    (buildArchiveStoragePlan filename data metadata).payloadRelativePath ≠
        (buildArchiveStoragePlan filename data metadata).metadataRelativePath ↔
      ¬ ".JSON".toList <:+ basenameSegment filename := by
  by_cases hdot : '.' ∈ basenameSegment filename
  · have hslash : '/' ∉ basenameSegment filename :=
      (basenameSegment_cases filename).resolve_right fun h => h hdot
    -- cut at the last dot
    obtain ⟨back, front, hreverse, hback⟩ :=
      List.eq_append_cons_of_mem (List.mem_reverse.mpr hdot)
    have hname : basenameSegment filename = front.reverse ++ '.' :: back.reverse := by
      rw [← List.reverse_reverse (basenameSegment filename), hreverse]
      simp
    have he : '.' ∉ back.reverse := fun h => hback (List.mem_reverse.mp h)
    rw [sidecar_of_extension hname he hslash, payloadRelativePath_eq, hname, ← List.append_assoc,
      not_iff_not]
    refine ⟨fun h => ?_, fun ⟨front', h⟩ => ?_⟩
    · have heq := List.append_cancel_left (List.cons.inj (List.append_cancel_left h)).2
      rw [(List.cons.inj heq).2]
      exact List.suffix_append _ _
    · have hcut := Str.rsplitOnce_append (s := front') (t := "JSON".toList) (c := '.') (by decide)
      have hcut' : Str.rsplitOnce '.' (front' ++ '.' :: "JSON".toList) =
          some (front.reverse, back.reverse) := by
        rw [show front' ++ '.' :: "JSON".toList = front.reverse ++ '.' :: back.reverse from h]
        exact Str.rsplitOnce_append he
      rw [hcut, Option.some.injEq, Prod.mk.injEq] at hcut'
      rw [← hcut'.2]
  · rw [sidecar_of_no_dot hdot]
    refine iff_of_true (fun h => ?_) fun ⟨front, h⟩ => hdot ?_
    · have := congrArg List.length h
      rw [List.length_append] at this
      have hlength : ".JSON".toList.length = 5 := rfl
      omega
    · rw [← h]
      exact List.mem_append_right _ (by decide)

/-- A payload that arrives as JSON is overwritten by its metadata. -/
theorem payload_eq_metadata :
    (buildArchiveStoragePlan "AFDBOX.JSON".toList "payload".toUTF8.toList
      ⟨"AFDBOX.JSON".toList, 7, 1, .qbt, ⟨none, none⟩⟩).payloadRelativePath =
    (buildArchiveStoragePlan "AFDBOX.JSON".toList "payload".toUTF8.toList
      ⟨"AFDBOX.JSON".toList, 7, 1, .qbt, ⟨none, none⟩⟩).metadataRelativePath := by
  decide +kernel

end Live
