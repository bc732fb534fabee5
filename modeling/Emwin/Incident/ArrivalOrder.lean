/-
# Incidents and the order of arrival

Products may be persisted in any order.  The row of an incident should show the newest
product about it, with the status of the newest product that carries one.  Two rules of the
upsert stand against that: a product without a status is dropped as long as there is no row,
and a product older than the row is dropped even if the row took its status over from a
still older one.  Both come into play exactly if the newest product carries no status.
-/
import Emwin.Incident.Projection
import Mathlib.Data.List.MinMax

namespace Incident

/-! ## What a product says about an incident -/

/-- The product has an operational code for the incident. -/
def Product.Mentions (product : Product) (key : IncidentKey) : Prop :=
  ∃ vtec ∈ product.vtec, vtec.status = "O".toList ∧ vtec.key = key

/-- The product has an operational code for the incident whose action gives a status. -/
def Product.CarriesStatus (product : Product) (key : IncidentKey) : Prop :=
  ∃ vtec ∈ product.vtec, vtec.status = "O".toList ∧ vtec.key = key ∧
    (mapIncidentStatus vtec.action).isSome

instance (product : Product) (key : IncidentKey) : Decidable (product.Mentions key) :=
  inferInstanceAs (Decidable (∃ vtec ∈ product.vtec, _ ∧ _))

instance (product : Product) (key : IncidentKey) : Decidable (product.CarriesStatus key) :=
  inferInstanceAs (Decidable (∃ vtec ∈ product.vtec, _ ∧ _ ∧ _))

/-- The status that the product gives the incident: that of its last such code. -/
def Product.statusFor (product : Product) (key : IncidentKey) : Option IncidentStatus :=
  (product.updateFor key).bind PreparedIncidentUpdate.currentStatus

theorem lookup_group (m : OrderedMap IncidentKey IncidentAccumulator) (vtec : ProductVtecRow)
    (key : IncidentKey) : (group m vtec).lookup key =
      if key = vtec.key then some (((m.lookup key).getD (.first vtec)).add vtec)
      else m.lookup key := by
  unfold group
  split
  · next h => rw [h, OrderedMap.lookup_insert_self]
  · next h => rw [OrderedMap.lookup_insert_of_ne m h]

/-- The incidents of some codes. -/
theorem isSome_lookup_foldl (rows : List ProductVtecRow) (key : IncidentKey)
    (m : OrderedMap IncidentKey IncidentAccumulator) :
    ((rows.foldl group m).lookup key).isSome ↔
      (m.lookup key).isSome ∨ ∃ vtec ∈ rows, vtec.key = key := by
  induction rows generalizing m with
  | nil => simp
  | cons vtec rows ih =>
      rw [List.foldl_cons, ih, lookup_group, List.exists_mem_cons_iff]
      split
      · next h => simp [h]
      · next h => simp [Ne.symm h]

/-- The incidents to which some codes give a value, if a code more adds its own. -/
theorem isSome_field_foldl {α β : Type*} {select : IncidentAccumulator → Option α}
    {given : ProductVtecRow → Option β}
    (hfirst : ∀ vtec, (select (.first vtec)).isSome ↔ (given vtec).isSome)
    (hadd : ∀ (entry : IncidentAccumulator) vtec, (select (entry.add vtec)).isSome ↔
      (select entry).isSome ∨ (given vtec).isSome)
    (rows : List ProductVtecRow) (key : IncidentKey)
    (m : OrderedMap IncidentKey IncidentAccumulator) :
    (((rows.foldl group m).lookup key).bind select).isSome ↔
      ((m.lookup key).bind select).isSome ∨
        ∃ vtec ∈ rows, vtec.key = key ∧ (given vtec).isSome := by
  induction rows generalizing m with
  | nil => simp
  | cons vtec rows ih =>
      rw [List.foldl_cons, ih, lookup_group, List.exists_mem_cons_iff]
      split
      · next h =>
          have hcode : (select (((m.lookup key).getD (.first vtec)).add vtec)).isSome ↔
              ((m.lookup key).bind select).isSome ∨ (given vtec).isSome := by
            rw [hadd]
            cases m.lookup key with
            | none => simp [hfirst]
            | some entry => simp
          rw [Option.bind_some, hcode, h]
          simp [or_assoc]
      · next h => simp [Ne.symm h]

/-- The incidents to which some codes give a status. -/
theorem isSome_status_foldl (rows : List ProductVtecRow) (key : IncidentKey)
    (m : OrderedMap IncidentKey IncidentAccumulator) :
    (((rows.foldl group m).lookup key).bind IncidentAccumulator.currentStatus).isSome ↔
      ((m.lookup key).bind IncidentAccumulator.currentStatus).isSome ∨
        ∃ vtec ∈ rows, vtec.key = key ∧ (mapIncidentStatus vtec.action).isSome := by
  have hfirst : ∀ vtec, (IncidentAccumulator.first vtec).currentStatus.isSome ↔
      (mapIncidentStatus vtec.action).isSome := fun _ => Iff.rfl
  refine isSome_field_foldl hfirst (fun entry vtec => ?_) rows key m
  unfold IncidentAccumulator.add
  cases mapIncidentStatus vtec.action <;> simp

theorem isSome_updateFor (product : Product) (key : IncidentKey) :
    (product.updateFor key).isSome ↔ product.Mentions key := by
  unfold Product.updateFor Product.Mentions groupVtec
  rw [Option.isSome_map, isSome_lookup_foldl]
  simp [and_assoc]

theorem isSome_statusFor (product : Product) (key : IncidentKey) :
    (product.statusFor key).isSome ↔ product.CarriesStatus key := by
  have h : product.statusFor key =
      ((groupVtec product.vtec).lookup key).bind IncidentAccumulator.currentStatus := by
    unfold Product.statusFor Product.updateFor
    rw [Option.bind_map]
    rfl
  unfold Product.CarriesStatus
  rw [h, groupVtec, isSome_status_foldl]
  simp [and_assoc]

theorem Product.CarriesStatus.mentions {product : Product} {key : IncidentKey}
    (h : product.CarriesStatus key) : product.Mentions key := by
  obtain ⟨vtec, hmem, hop, hkey, -⟩ := h
  exact ⟨vtec, hmem, hop, hkey⟩

theorem updateFor_timestamp {product : Product} {key : IncidentKey} {u : PreparedIncidentUpdate}
    (h : product.updateFor key = some u) : u.latestProductTimestampUtc = product.issuedAt := by
  obtain ⟨entry, -, rfl⟩ := Option.map_eq_some_iff.mp h
  rfl

/-! ## Persisting products in an order -/

/-- The incidents after some products; `clock` gives the time of each transaction. -/
def persistAll (clock : ℕ → Time) : List Product → Incidents → Incidents
  | [], incidents => incidents
  | product :: products, incidents =>
      persistAll clock products (persist (clock product.id) product incidents).1

/-- One product, seen by one incident. -/
def persistRow (clock : ℕ → Time) (key : IncidentKey) (row : Option IncidentSummary)
    (product : Product) : Option IncidentSummary :=
  applyUpdate product.id (clock product.id) (product.updateFor key) row

/-- Some products, seen by one incident. -/
theorem persistAll_apply (clock : ℕ → Time) (products : List Product) (incidents : Incidents)
    (key : IncidentKey) : persistAll clock products incidents key =
      products.foldl (persistRow clock key) (incidents key) := by
  induction products generalizing incidents with
  | nil => rfl
  | cons product products ih =>
      rw [persistAll, ih, persist_apply, List.foldl_cons]
      rfl

/-- The columns of a row that describe the incident. -/
def IncidentSummary.state (row : IncidentSummary) :
    IncidentStatus × Str × Option Time × Option Time × Time :=
  (row.currentStatus, row.latestVtecAction, row.startUtc, row.endUtc,
    row.latestProductTimestampUtc)

/-- There is no row, or it is older than a time. -/
def Behind (time : Time) (row : Option IncidentSummary) : Prop :=
  ∀ r ∈ row, r.latestProductTimestampUtc < time

section OneIncident

variable {clock : ℕ → Time} {key : IncidentKey} {product : Product} {row : Option IncidentSummary}

/-- A product that does not mention the incident leaves its row alone. -/
theorem persistRow_of_not_mentions (h : ¬ product.Mentions key) :
    persistRow clock key row product = row := by
  unfold persistRow
  rw [← isSome_updateFor, Bool.not_eq_true, Option.isSome_eq_false_iff, Option.isNone_iff_eq_none]
    at h
  rw [h]
  rfl

/-- Without a row, a product with a status makes one. -/
theorem persistRow_none {u : PreparedIncidentUpdate} (hu : product.updateFor key = some u) :
    persistRow clock key none product = u.currentStatus.map fun status =>
      ⟨u.key, status, u.latestVtecAction, u.issuedAt, u.startUtc, u.endUtc, clock product.id,
        product.id, product.id, u.latestProductTimestampUtc⟩ := by
  unfold persistRow
  rw [hu]
  exact Option.or_none

/-- A product that is not older replaces the row, and keeps its status if it has none. -/
theorem persistRow_newer {u : PreparedIncidentUpdate} (hu : product.updateFor key = some u)
    {r : IncidentSummary} (h : r.latestProductTimestampUtc ≤ product.issuedAt) :
    persistRow clock key (some r) product =
      some ⟨u.key, u.currentStatus.getD r.currentStatus, u.latestVtecAction, u.issuedAt, u.startUtc,
        u.endUtc, clock product.id, r.firstProductId, product.id, u.latestProductTimestampUtc⟩ := by
  unfold persistRow
  rw [hu]
  show (upsertRow _ _ u (some r)).or (some r) = _
  rw [upsertRow, if_pos (by rw [updateFor_timestamp hu]; exact h), Option.some_or]

/-- An older product leaves the row alone. -/
theorem persistRow_older {r : IncidentSummary}
    (h : product.Mentions key → product.issuedAt < r.latestProductTimestampUtc) :
    persistRow clock key (some r) product = some r := by
  by_cases hm : product.Mentions key
  · obtain ⟨u, hu⟩ := Option.isSome_iff_exists.mp ((isSome_updateFor product key).mpr hm)
    unfold persistRow
    rw [hu]
    show (upsertRow _ _ u (some r)).or (some r) = _
    rw [upsertRow, if_neg (by rw [updateFor_timestamp hu]; exact not_le.mpr (h hm)),
      Option.none_or]
  · exact persistRow_of_not_mentions hm

/-- A row that is behind stays behind under older products. -/
theorem behind_persistRow {time : Time} (h : product.Mentions key → product.issuedAt < time)
    (hrow : Behind time row) : Behind time (persistRow clock key row product) := by
  by_cases hm : product.Mentions key
  · obtain ⟨u, hu⟩ := Option.isSome_iff_exists.mp ((isSome_updateFor product key).mpr hm)
    have hold : u.latestProductTimestampUtc < time := by
      rw [updateFor_timestamp hu]
      exact h hm
    intro r hr
    cases row with
    | none =>
        rw [persistRow_none hu] at hr
        obtain ⟨status, -, rfl⟩ := Option.map_eq_some_iff.mp hr
        exact hold
    | some existing =>
        rcases le_or_gt existing.latestProductTimestampUtc product.issuedAt with hle | hgt
        · rw [persistRow_newer hu hle] at hr
          obtain rfl := Option.some.inj hr
          exact hold
        · rw [persistRow_older fun _ => hgt] at hr
          exact hrow r hr
  · rw [persistRow_of_not_mentions hm]
    exact hrow

/-- A row stays. -/
theorem isSome_persistRow (h : row.isSome) : (persistRow clock key row product).isSome := by
  by_cases hm : product.Mentions key
  · obtain ⟨u, hu⟩ := Option.isSome_iff_exists.mp ((isSome_updateFor product key).mpr hm)
    obtain ⟨r, rfl⟩ := Option.isSome_iff_exists.mp h
    rcases le_or_gt r.latestProductTimestampUtc product.issuedAt with hle | hgt
    · rw [persistRow_newer hu hle]
      rfl
    · rw [persistRow_older fun _ => hgt]
      rfl
  · rw [persistRow_of_not_mentions hm]
    exact h

/-- After a product with a status there is a row. -/
theorem isSome_persistRow_of_carriesStatus (h : product.CarriesStatus key) :
    (persistRow clock key row product).isSome := by
  cases row with
  | some r => exact isSome_persistRow rfl
  | none =>
      obtain ⟨u, hu⟩ := Option.isSome_iff_exists.mp ((isSome_updateFor product key).mpr h.mentions)
      have hstatus := (isSome_statusFor product key).mpr h
      unfold Product.statusFor at hstatus
      rw [hu, Option.bind_some] at hstatus
      rw [persistRow_none hu, Option.isSome_map]
      exact hstatus

/-- A product with a status that is newer than the row puts its own values there. -/
theorem state_persistRow {u : PreparedIncidentUpdate} {status : IncidentStatus}
    (hu : product.updateFor key = some u) (hstatus : u.currentStatus = some status)
    (hrow : Behind product.issuedAt row) :
    (persistRow clock key row product).map IncidentSummary.state =
      some (status, u.latestVtecAction, u.startUtc, u.endUtc, product.issuedAt) := by
  cases row with
  | none =>
      rw [persistRow_none hu, hstatus, ← updateFor_timestamp hu]
      rfl
  | some r =>
      rw [persistRow_newer hu (le_of_lt (hrow r rfl)), hstatus, ← updateFor_timestamp hu]
      rfl

end OneIncident

/-! ## Orders -/

section Orders

variable {clock : ℕ → Time} {key : IncidentKey}

theorem behind_foldl {time : Time} {products : List Product}
    (h : ∀ q ∈ products, q.Mentions key → q.issuedAt < time) {row : Option IncidentSummary}
    (hrow : Behind time row) : Behind time (products.foldl (persistRow clock key) row) := by
  induction products generalizing row with
  | nil => exact hrow
  | cons q products ih =>
      exact ih (fun q' hq' => h q' (List.mem_cons_of_mem _ hq'))
        (behind_persistRow (h q List.mem_cons_self) hrow)

theorem isSome_foldl {products : List Product} {row : Option IncidentSummary}
    (h : row.isSome ∨ ∃ q ∈ products, q.CarriesStatus key) :
    (products.foldl (persistRow clock key) row).isSome := by
  induction products generalizing row with
  | nil =>
      rcases h with h | ⟨q, hq, -⟩
      · exact h
      · cases hq
  | cons q products ih =>
      apply ih
      rcases h with h | ⟨q', hq', hcarries⟩
      · exact Or.inl (isSome_persistRow h)
      · rcases List.mem_cons.mp hq' with rfl | hq'
        · exact Or.inl (isSome_persistRow_of_carriesStatus hcarries)
        · exact Or.inr ⟨q', hq', hcarries⟩

/-- Older products leave a row alone. -/
theorem foldl_older {products : List Product} {r : IncidentSummary}
    (h : ∀ q ∈ products, q.Mentions key → q.issuedAt < r.latestProductTimestampUtc) :
    products.foldl (persistRow clock key) (some r) = some r := by
  induction products with
  | nil => rfl
  | cons q products ih =>
      rw [List.foldl_cons, persistRow_older (h q List.mem_cons_self)]
      exact ih fun q' hq' => h q' (List.mem_cons_of_mem _ hq')

/-- In any order, the newest product determines the row if it carries a status. -/
theorem state_of_newest {before after : List Product} {newest : Product}
    (hbefore : ∀ q ∈ before, q.Mentions key → q.issuedAt < newest.issuedAt)
    (hafter : ∀ q ∈ after, q.Mentions key → q.issuedAt < newest.issuedAt)
    {u : PreparedIncidentUpdate} {status : IncidentStatus} (hu : newest.updateFor key = some u)
    (hstatus : u.currentStatus = some status) :
    ((before ++ newest :: after).foldl (persistRow clock key) none).map IncidentSummary.state =
      some (status, u.latestVtecAction, u.startUtc, u.endUtc, newest.issuedAt) := by
  have hbehind : Behind newest.issuedAt (before.foldl (persistRow clock key) none) :=
    behind_foldl hbefore (by intro r hr; cases hr)
  have hstate : (persistRow clock key (before.foldl (persistRow clock key) none) newest).map
      IncidentSummary.state = _ := state_persistRow hu hstatus hbehind
  obtain ⟨r, hr, hfields⟩ := Option.map_eq_some_iff.mp hstate
  have htime : r.latestProductTimestampUtc = newest.issuedAt :=
    congrArg (fun f => f.2.2.2.2) hfields
  rw [List.foldl_append, List.foldl_cons, hr, foldl_older (by rw [htime]; exact hafter)]
  exact congrArg some hfields

/-- Among products that mention an incident there is a newest one. -/
theorem exists_newest {products : List Product} (h : ∃ p ∈ products, p.Mentions key) :
    ∃ p ∈ products, p.Mentions key ∧ ∀ q ∈ products, q.Mentions key → q.issuedAt ≤ p.issuedAt := by
  classical
  obtain ⟨p, hp, hm⟩ := h
  have hne : products.filter (fun p => decide (p.Mentions key)) ≠ [] :=
    List.ne_nil_of_mem (List.mem_filter.mpr ⟨hp, decide_eq_true hm⟩)
  cases hmax : (products.filter fun p => decide (p.Mentions key)).argmax Product.issuedAt with
  | none => exact absurd (List.argmax_eq_none.mp hmax) hne
  | some m =>
      obtain ⟨hmem, hmm⟩ := List.mem_filter.mp (List.argmax_mem hmax)
      refine ⟨m, hmem, of_decide_eq_true hmm, ?_⟩
      intro q hq hqm
      exact List.le_of_mem_argmax (List.mem_filter.mpr ⟨hq, decide_eq_true hqm⟩) hmax

/-- Products at the same time are the same product. -/
theorem eq_of_issuedAt_eq {products : List Product}
    (hdistinct : (products.map Product.sourceTimestampUtc).Nodup) {p q : Product}
    (hp : p ∈ products) (hq : q ∈ products) (h : p.issuedAt = q.issuedAt) : p = q := by
  apply List.inj_on_of_nodup_map hdistinct hp hq
  exact mul_right_cancel₀ (by decide) h

/-- The row of the incident after both orders is the same, and shows the status of the newest
product that carries one. -/
def OrderIndependent (products : List Product) (key : IncidentKey) : Prop :=
  ∀ (clock clock' : ℕ → Time) (order order' : List Product),
    order.Perm products → order'.Perm products →
      (persistAll clock order (fun _ => none) key).map IncidentSummary.state =
        (persistAll clock' order' (fun _ => none) key).map IncidentSummary.state ∧
      ∀ p ∈ products, ∀ status, p.statusFor key = some status →
        (∀ q ∈ products, q.CarriesStatus key → q.issuedAt ≤ p.issuedAt) →
        (persistAll clock order (fun _ => none) key).map IncidentSummary.currentStatus =
          some status

/-- An order, cut at one of its products: the others that mention the incident are older. -/
theorem exists_split {products order : List Product}
    (hdistinct : (products.map Product.sourceTimestampUtc).Nodup) (hperm : order.Perm products)
    {newest : Product} (hmem : newest ∈ products)
    (hnewest : ∀ q ∈ products, q.Mentions key → q.issuedAt ≤ newest.issuedAt) :
    ∃ before after, order = before ++ newest :: after ∧
      (∀ q ∈ before, q.Mentions key → q.issuedAt < newest.issuedAt) ∧
      (∀ q ∈ after, q.Mentions key → q.issuedAt < newest.issuedAt) := by
  obtain ⟨before, after, rfl⟩ := List.append_of_mem (hperm.mem_iff.mpr hmem)
  have hnodup : (before ++ newest :: after).Nodup :=
    (hperm.nodup_iff).mpr (List.Nodup.of_map _ hdistinct)
  have hother : ∀ q ∈ before ++ newest :: after, q ≠ newest → q.Mentions key →
      q.issuedAt < newest.issuedAt := by
    intro q hq hne hm
    have hq' := hperm.mem_iff.mp hq
    exact lt_of_le_of_ne (hnewest q hq' hm) fun he => hne (eq_of_issuedAt_eq hdistinct hq' hmem he)
  rw [List.nodup_append] at hnodup
  obtain ⟨-, htail, hdisjoint⟩ := hnodup
  refine ⟨before, after, rfl, ?_, ?_⟩
  · intro q hq
    exact hother q (List.mem_append_left _ hq)
      (hdisjoint q hq newest List.mem_cons_self)
  · intro q hq
    refine hother q (List.mem_append_right _ (List.mem_cons_of_mem _ hq)) ?_
    rintro rfl
    exact (List.nodup_cons.mp htail).1 hq

/-- A newest product without a status: persisted first it is dropped, persisted last it is
shown. -/
theorem state_first_ne_last {rest : List Product} {newest first : Product}
    (hrest : ∀ q ∈ rest, q.Mentions key → q.issuedAt < newest.issuedAt)
    (hmentions : newest.Mentions key) (hstatusless : ¬ newest.CarriesStatus key)
    (hfirst : first ∈ rest) (hcarries : first.CarriesStatus key) :
    (persistAll clock (newest :: rest) (fun _ => none) key).map IncidentSummary.state ≠
      (persistAll clock (rest ++ [newest]) (fun _ => none) key).map IncidentSummary.state := by
  obtain ⟨u, hu⟩ := Option.isSome_iff_exists.mp ((isSome_updateFor newest key).mpr hmentions)
  have hnone : u.currentStatus = none := by
    rw [← isSome_statusFor, Bool.not_eq_true, Option.isSome_eq_false_iff,
      Option.isNone_iff_eq_none, Product.statusFor, hu] at hstatusless
    exact hstatusless
  have hdropped : persistRow clock key none newest = none := by
    rw [persistRow_none hu, hnone]
    rfl
  have hsome : (rest.foldl (persistRow clock key) none).isSome :=
    isSome_foldl (Or.inr ⟨first, hfirst, hcarries⟩)
  have hbehind : Behind newest.issuedAt (rest.foldl (persistRow clock key) none) :=
    behind_foldl hrest (by intro r hr; cases hr)
  rw [persistAll_apply, persistAll_apply, List.foldl_cons, hdropped, List.foldl_append]
  obtain ⟨r, hr⟩ := Option.isSome_iff_exists.mp hsome
  have hold := hbehind r hr
  rw [hr, List.foldl_cons, List.foldl_nil, persistRow_newer hu (le_of_lt hold)]
  intro heq
  have htime : r.latestProductTimestampUtc = u.latestProductTimestampUtc :=
    congrArg (fun f => f.2.2.2.2) (Option.some.inj heq)
  rw [updateFor_timestamp hu] at htime
  exact absurd htime (ne_of_lt hold)

/-- **The order of arrival.**  If the earliest product about an incident carries a status, then
the row of the incident is independent of the order in which the products are persisted, and
shows the status of the newest product that carries one, if and only if the newest product
about the incident carries a status. -/
theorem order_independent_iff {products : List Product}
    (hdistinct : (products.map Product.sourceTimestampUtc).Nodup) {key : IncidentKey}
    (hearliest : ∃ p ∈ products, p.CarriesStatus key ∧
      ∀ q ∈ products, q.Mentions key → p.issuedAt ≤ q.issuedAt) :
    OrderIndependent products key ↔
      ∃ p ∈ products, p.CarriesStatus key ∧
        ∀ q ∈ products, q.Mentions key → q.issuedAt ≤ p.issuedAt := by
  constructor
  · intro hsame
    obtain ⟨first, hfirst, hcarries, -⟩ := hearliest
    obtain ⟨newest, hmem, hmentions, hnewest⟩ :=
      exists_newest ⟨first, hfirst, hcarries.mentions⟩
    by_contra hnone
    -- the newest product comes first and is dropped, or last and is not
    have hstatusless : ¬ newest.CarriesStatus key := fun h => hnone ⟨newest, hmem, h, hnewest⟩
    obtain ⟨before, after, rfl, hbefore, hafter⟩ :=
      exists_split hdistinct (List.Perm.refl products) hmem hnewest
    have hrest : ∀ q ∈ before ++ after, q.Mentions key → q.issuedAt < newest.issuedAt := by
      intro q hq
      rcases List.mem_append.mp hq with hq | hq
      · exact hbefore q hq
      · exact hafter q hq
    have hin : first ∈ before ++ after := by
      rcases List.mem_cons.mp (List.perm_middle.mem_iff.mp hfirst) with rfl | hin
      · exact absurd hcarries hstatusless
      · exact hin
    have hlast : ((before ++ after) ++ [newest]).Perm (before ++ newest :: after) :=
      (List.perm_append_singleton newest (before ++ after)).trans List.perm_middle.symm
    exact state_first_ne_last hrest hmentions hstatusless hin hcarries
      (hsame (fun _ => 0) (fun _ => 0) _ _ List.perm_middle.symm hlast).1
  · rintro ⟨newest, hmem, hcarries, hnewest⟩ clock clock' order order' hperm hperm'
    obtain ⟨u, hu⟩ := Option.isSome_iff_exists.mp
      ((isSome_updateFor newest key).mpr hcarries.mentions)
    obtain ⟨status, hstatus⟩ :=
      Option.isSome_iff_exists.mp ((isSome_statusFor newest key).mpr hcarries)
    have hustatus : u.currentStatus = some status := by
      unfold Product.statusFor at hstatus
      rw [hu] at hstatus
      exact hstatus
    have hstate : ∀ (c : ℕ → Time) (o : List Product), o.Perm products →
        (persistAll c o (fun _ => none) key).map IncidentSummary.state =
          some (status, u.latestVtecAction, u.startUtc, u.endUtc, newest.issuedAt) := by
      intro c o ho
      obtain ⟨before, after, rfl, hbefore, hafter⟩ := exists_split hdistinct ho hmem hnewest
      rw [persistAll_apply]
      exact state_of_newest hbefore hafter hu hustatus
    refine ⟨(hstate clock order hperm).trans (hstate clock' order' hperm').symm, ?_⟩
    intro p hp status' hp' hlatest
    -- the newest product that carries a status is the newest one
    have hpcarries : p.CarriesStatus key := by
      rw [← isSome_statusFor, hp']
      rfl
    have heq : p = newest := eq_of_issuedAt_eq hdistinct hp hmem
      (le_antisymm (hnewest p hp hpcarries.mentions) (hlatest newest hmem hcarries))
    obtain ⟨r, hr, hfields⟩ := Option.map_eq_some_iff.mp (hstate clock order hperm)
    rw [hr, ← hp', heq, hstatus]
    exact congrArg (fun f => some f.1) hfields

end Orders

/-! ## A cancellation that comes late -/

/-- The key of a tornado warning. -/
def tornadoKey : IncidentKey := ⟨"KOAX".toList, "TO".toList, "W".toList, 1⟩

/-- A product about the warning, with one code. -/
def tornadoProduct (id : ℕ) (action : Str) (h : (fromTimestamp (100 * id)).isSome) : Product where
  id := id
  sourceTimestampUtc := 100 * id
  vtec := [⟨"O".toList, action, "KOAX".toList, "TO".toList, "W".toList, 1, none, none⟩]
  storable := h

/-- A new warning, its cancellation, and a correction of the cancellation. -/
def cancelledWarning : List Product :=
  [tornadoProduct 1 "NEW".toList (by decide), tornadoProduct 2 "CAN".toList (by decide),
    tornadoProduct 3 "COR".toList (by decide)]

/-- The same products, the cancellation last. -/
def lateCancellation : List Product :=
  [tornadoProduct 1 "NEW".toList (by decide), tornadoProduct 3 "COR".toList (by decide),
    tornadoProduct 2 "CAN".toList (by decide)]

/-- A new warning, a correction, and the cancellation. -/
def correctedWarning : List Product :=
  [tornadoProduct 1 "NEW".toList (by decide), tornadoProduct 2 "COR".toList (by decide),
    tornadoProduct 3 "CAN".toList (by decide)]

theorem late_cancellation_lost :
    (cancelledWarning.map Product.sourceTimestampUtc).Nodup ∧
    (∃ p ∈ cancelledWarning, p.CarriesStatus tornadoKey ∧
      ∀ q ∈ cancelledWarning, q.Mentions tornadoKey → p.issuedAt ≤ q.issuedAt) ∧
    lateCancellation.Perm cancelledWarning ∧
    (persistAll (fun _ => 0) cancelledWarning (fun _ => none) tornadoKey).map
      IncidentSummary.currentStatus = some .cancelled ∧
    (persistAll (fun _ => 0) lateCancellation (fun _ => none) tornadoKey).map
      IncidentSummary.currentStatus = some .active ∧
    ¬ OrderIndependent cancelledWarning tornadoKey := by
  have hcancelled : (persistAll (fun _ => 0) cancelledWarning (fun _ => none) tornadoKey).map
      IncidentSummary.currentStatus = some .cancelled := by decide +kernel
  have hactive : (persistAll (fun _ => 0) lateCancellation (fun _ => none) tornadoKey).map
      IncidentSummary.currentStatus = some .active := by decide +kernel
  have hperm : lateCancellation.Perm cancelledWarning :=
    (List.Perm.swap _ _ []).cons _
  refine ⟨by decide +kernel, by decide +kernel, hperm, hcancelled, hactive, ?_⟩
  intro h
  have hsame := (h (fun _ => 0) (fun _ => 0) _ _ (List.Perm.refl _) hperm).1
  have hstatus := congrArg (Option.map fun f => f.1) hsame
  rw [Option.map_map, Option.map_map] at hstatus
  exact absurd (hcancelled.symm.trans (hstatus.trans hactive)) (by decide)

theorem order_independent_iff_corrected : OrderIndependent correctedWarning tornadoKey :=
  (order_independent_iff (by decide +kernel) (by decide +kernel)).mpr (by decide +kernel)

end Incident
