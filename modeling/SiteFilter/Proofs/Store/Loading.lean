import SiteFilter.Proofs.Rule.Written
import SiteFilter.Proofs.Store.Commit
import SiteFilter.Proofs.Text.Normalization

/-!
# Loading the rules

What a store takes from its storage: host names as they are kept, without repetitions, and valid
rules without repetitions. Rules like these are taken back just as they were stored.
-/

namespace SiteFilter

open FileTree Effect

/-! ## Lists without repetitions -/

section Distinct

variable {α : Type} [DecidableEq α]

def addNew (items : List α) (item : α) : List α :=
  if item ∈ items then items else items ++ [item]

theorem distinct_eq (items : List α) : distinct items = items.foldl addNew [] := by
  have step (items : List α) : ∀ done : List α,
      (items.foldl (fun done item => if item ∈ done then done else item :: done) done).reverse =
        items.foldl addNew done.reverse := by
    induction items with
    | nil => exact fun done => rfl
    | cons item items ih =>
        intro done
        rw [List.foldl_cons, List.foldl_cons, ih]
        congr 1
        unfold addNew
        by_cases there : item ∈ done
        · rw [if_pos there, if_pos (List.mem_reverse.mpr there)]
        · rw [if_neg there, if_neg fun h => there (List.mem_reverse.mp h), List.reverse_cons]
  exact step items []

theorem mem_addNew {items : List α} {item a : α} :
    a ∈ addNew items item ↔ a ∈ items ∨ a = item := by
  unfold addNew
  split
  · rename_i there
    exact ⟨.inl, fun h => h.elim id fun same => same ▸ there⟩
  · simp

theorem nodup_addNew {items : List α} (h : items.Nodup) (item : α) :
    (addNew items item).Nodup := by
  unfold addNew
  split
  · exact h
  · rename_i fresh
    rw [List.nodup_append]
    refine ⟨h, by simp, fun a inside b same => ?_⟩
    rintro rfl
    rw [List.mem_singleton.mp same] at inside
    exact fresh inside

theorem mem_foldl_addNew {items done : List α} {a : α} :
    a ∈ items.foldl addNew done ↔ a ∈ done ∨ a ∈ items := by
  induction items generalizing done with
  | nil => simp
  | cons item items ih => rw [List.foldl_cons, ih, mem_addNew, List.mem_cons, or_assoc]

theorem nodup_foldl_addNew (items : List α) {done : List α} (h : done.Nodup) :
    (items.foldl addNew done).Nodup := by
  induction items generalizing done with
  | nil => exact h
  | cons item items ih => exact ih (nodup_addNew h item)

theorem nodup_distinct (items : List α) : (distinct items).Nodup := by
  rw [distinct_eq]
  exact nodup_foldl_addNew items List.nodup_nil

theorem mem_distinct {items : List α} {a : α} : a ∈ distinct items ↔ a ∈ items := by
  rw [distinct_eq, mem_foldl_addNew]
  simp

/-- A list without repetitions is left as it is. -/
theorem distinct_of_nodup {items : List α} (h : items.Nodup) : distinct items = items := by
  have step (items : List α) : ∀ done : List α, (done ++ items).Nodup →
      items.foldl addNew done = done ++ items := by
    induction items with
    | nil => simp
    | cons item items ih =>
        intro done nodup
        have fresh : item ∉ done := by
          intro inside
          rw [List.nodup_append] at nodup
          exact nodup.2.2 item inside item List.mem_cons_self rfl
        rw [List.foldl_cons, addNew, if_neg fresh, ih _ (by simpa using nodup), List.append_assoc]
        rfl
  rw [distinct_eq, step items [] (by simpa using h), List.nil_append]

theorem distinct_sublist (items : List α) : (distinct items).Sublist items := by
  have step (items : List α) : ∀ done : List α,
      (items.foldl addNew done).Sublist (done ++ items) := by
    induction items with
    | nil => simp
    | cons item items ih =>
        intro done
        refine (ih (addNew done item)).trans ?_
        unfold addNew
        split
        · exact (List.sublist_cons_self item items).append_left done
        · simp
  have all := step items []
  rwa [List.nil_append, ← distinct_eq] at all

/-- Items that are all there again were all kept: none was lost on the way, and none was doubled. -/
theorem distinct_filterMap_eq_iff {items : List α} {f : α → Option α} (h : items.Nodup) :
    distinct (items.filterMap f) = items ↔ items.filterMap f = items := by
  constructor
  · intro same
    have few := (distinct_sublist (items.filterMap f)).length_le
    have fewer := List.length_filterMap_le f items
    rw [same] at few
    have all := (distinct_sublist (items.filterMap f)).eq_of_length (by rw [same]; omega)
    rw [← all, same]
  · intro same
    rw [same, distinct_of_nodup h]

end Distinct

namespace RuleStore

/-! ## Rules that storage can hold -/

/-- Rules as a store keeps them: without repetitions, and hosts by normalized names. -/
structure IsKept (lowersHosts : Bool) (rules : RuleSet) : Prop where
  hosts_nodup : rules.hosts.Nodup
  hosts_normalized : ∀ rule ∈ rules.hosts, IsNormalized lowersHosts rule.hostname
  elementRules_nodup : rules.elementRules.Nodup

theorem hostname_of_hostOf {lowersHosts : Bool} {value : Json} {rule : HostRule}
    (h : hostOf lowersHosts value = some rule) : IsNormalized lowersHosts rule.hostname := by
  cases value with
  | text name =>
      by_cases empty : normalizeHost lowersHosts name = []
      · rw [hostOf, HostRule.make, dif_pos empty] at h
        cases h
      · rw [hostOf, HostRule.make, dif_neg empty] at h
        cases h
        exact isNormalized_normalizeHost lowersHosts name
  | _ => cases h

theorem isKept_of_stored (lowersHosts : Bool) (hosts elementRules : List Json) :
    IsKept lowersHosts ⟨hostsOf lowersHosts hosts, elementRulesOf elementRules⟩ := by
  refine ⟨nodup_distinct _, fun rule inside => ?_, nodup_distinct _⟩
  obtain ⟨value, -, found⟩ := List.mem_filterMap.mp (mem_distinct.mp inside)
  exact hostname_of_hostOf found

theorem hostOf_hostname {lowersHosts : Bool} {rule : HostRule}
    (h : IsNormalized lowersHosts rule.hostname) :
    hostOf lowersHosts (.text rule.hostname) = some rule := by
  unfold hostOf
  simp only
  rw [show normalizeHost lowersHosts rule.hostname = rule.hostname from h, HostRule.make,
    dif_neg rule.hostname_ne]
  rfl

/-- Hosts are taken back as they were stored. -/
theorem hostsOf_stored {lowersHosts : Bool} {rules : RuleSet} (h : IsKept lowersHosts rules) :
    hostsOf lowersHosts (rules.hosts.map fun rule => .text rule.hostname) = rules.hosts := by
  have same : (rules.hosts.map fun rule => Json.text rule.hostname).filterMap
      (hostOf lowersHosts) = rules.hosts := by
    rw [List.filterMap_map, List.filterMap_eq_map_iff_forall_eq_some.mpr, List.map_id]
    exact fun rule inside => hostOf_hostname (h.hosts_normalized rule inside)
  rw [hostsOf, same, distinct_of_nodup h.hosts_nodup]

/-- Element rules are taken back as they were stored. -/
theorem elementRulesOf_stored {rules : List ElementRule} (h : rules.Nodup) :
    elementRulesOf (rules.map ElementRule.toJson) = rules := by
  rw [elementRulesOf, ElementRule.filterMap_toJson, distinct_of_nodup h]

/-! ## What loading gives -/

theorem noteRejected_spec (values : List Json) (machine : Machine) :
    Ensures (noteRejected values) machine fun result after =>
      result = .ok () ∧ machine.Alike after := by
  induction values generalizing machine with
  | nil => exact .pure ⟨rfl, .refl machine⟩
  | cons value values ih =>
      refine .bindOk (a := ⟨⟩) (Q := machine.Alike) ?_ ?_
      · dsimp only
        split
        · exact .pure ⟨rfl, .refl machine⟩
        · exact Action.note_spec _ _ _ _
      · intro middle alike
        refine (ih middle).mono ?_
        rintro result after ⟨done, alike'⟩
        exact ⟨done, alike.trans alike'⟩

/-- Loading takes what storage holds, or fails and leaves the rules as they were. -/
theorem load_spec (editor : Editor) :
    Ensures load editor fun result after =>
      editor.machine.Alike after.machine ∧
        match read editor.store.storage editor.store.lowersHosts editor.machine.files with
        | .ok rules => result = .ok () ∧ after.store = editor.store.withRules rules
        | .error e => result = .error e ∧ after.store = editor.store := by
  apply Editing.storeThen
  refine .bind (Editing.act_spec (Action.ask_spec _ editor.machine)) ?_ ?_
  · rintro ⟨hosts, elementRules⟩ asked ⟨store, found, machine⟩
    have known : read editor.store.storage editor.store.lowersHosts editor.machine.files =
        .ok ⟨hostsOf editor.store.lowersHosts hosts, elementRulesOf elementRules⟩ := by
      unfold read
      rw [← found]
      rfl
    rw [known]
    refine .bindOk (Editing.actOk_spec (noteRejected_spec elementRules asked.machine)) ?_
    rintro noted ⟨store', alike⟩
    apply Editing.modifyStoreThen
    refine (Editing.actOk_spec (Action.note_spec _ _ _ _)).mono ?_
    rintro result after ⟨done, store'', alike'⟩
    refine ⟨?_, done, ?_⟩
    · rw [machine] at alike
      exact alike.trans alike'
    · rw [store'', store', store]
  · rintro e asked ⟨store, found, machine⟩
    have known : read editor.store.storage editor.store.lowersHosts editor.machine.files =
        .error e := by
      unfold read
      rw [← found]
      rfl
    rw [known, machine, store]
    exact ⟨.refl _, rfl, rfl⟩

/-! ## Rules in storage -/

/-- Storage holds rules, and goes on to do so as long as its files are left alone. -/
structure Stores (storage : KeyedStorage) (lowersHosts : Bool) (files : FileTree)
    (rules : RuleSet) : Prop where
  hosts : ∃ value items, storage.Shows files hostsKey value ∧ storedElements value = .ok items ∧
    hostsOf lowersHosts items = rules.hosts
  elementRules : ∃ value items, storage.Shows files elementRulesKey value ∧
    storedElements value = .ok items ∧ elementRulesOf items = rules.elementRules

theorem read_of_stores {storage : KeyedStorage} {lowersHosts : Bool} {files : FileTree}
    {rules : RuleSet} (h : Stores storage lowersHosts files rules) :
    read storage lowersHosts files = .ok rules := by
  obtain ⟨hosts, hostItems, hostsShown, hostsFound, hostsSame⟩ := h.hosts
  obtain ⟨others, otherItems, othersShown, othersFound, othersSame⟩ := h.elementRules
  have getHosts : storage.get? files hostsKey = .ok hosts :=
    KeyedStorage.get?_of_shows (Part.isShortKey .hosts).isKey hostsShown
  have getOthers : storage.get? files elementRulesKey = .ok others :=
    KeyedStorage.get?_of_shows (Part.isShortKey .elementRules).isKey othersShown
  unfold read stored
  rw [getHosts, getOthers]
  simp only [bind, Except.bind, hostsFound, othersFound, pure, Except.pure, hostsSame, othersSame]

/-- A storage without files holds no rules. -/
theorem read_of_absent {storage : KeyedStorage} {files : FileTree} (lowersHosts : Bool)
    (absent : ∀ part : Part, files.look (storage.fileOf part.key) = .ok none) :
    read storage lowersHosts files = .ok RuleSet.empty := by
  have nothing (part : Part) : storage.get? files part.key = .ok none := by
    unfold KeyedStorage.get?
    rw [KeyedStorage.pathOf_eq storage part.isShortKey.isKey]
    simp only [bind, Except.bind, FileTree.has, absent part]
    rfl
  have hosts : storage.get? files hostsKey = .ok none := nothing .hosts
  have others : storage.get? files elementRulesKey = .ok none := nothing .elementRules
  unfold read stored
  rw [hosts, others]
  rfl

theorem stores_of_read {storage : KeyedStorage} {lowersHosts : Bool} {files : FileTree}
    {rules : RuleSet} (closed : files.Closed) (named : storage.directory.IsNamed)
    (steady : files.Steady storage.directory)
    (h : read storage lowersHosts files = .ok rules) : Stores storage lowersHosts files rules := by
  unfold read stored at h
  cases hosts : storage.get? files hostsKey with
  | error e =>
      rw [hosts] at h
      cases h
  | ok hostsValue =>
      cases others : storage.get? files elementRulesKey with
      | error e =>
          rw [hosts, others] at h
          cases h
      | ok othersValue =>
          rw [hosts, others] at h
          have hostsShown := KeyedStorage.shows_of_get? closed named steady
            (Part.isShortKey .hosts) hosts
          have othersShown := KeyedStorage.shows_of_get? closed named steady
            (Part.isShortKey .elementRules) others
          simp only [bind, Except.bind] at h
          cases hostItems : storedElements hostsValue with
          | error e =>
              rw [hostItems] at h
              cases h
          | ok hostItems' =>
              cases otherItems : storedElements othersValue with
              | error e =>
                  rw [hostItems, otherItems] at h
                  cases h
              | ok otherItems' =>
                  rw [hostItems, otherItems] at h
                  cases h
                  exact ⟨⟨_, _, hostsShown, hostItems, rfl⟩, ⟨_, _, othersShown, otherItems, rfl⟩⟩

/-! ## Writes to the files of a storage and elsewhere -/

/-- Whether rules differ in one list only. -/
def Part.Spares (before after : RuleSet) : Part → Prop
  | .hosts => after.elementRules = before.elementRules
  | .elementRules => after.hosts = before.hosts

section Writes

variable {storage : KeyedStorage} {lowersHosts : Bool} {files after : FileTree} {rules : RuleSet}

theorem storedElements_array (items : List Json) :
    storedElements (some (.array items)) = .ok items := by
  cases items <;> rfl

/-- A list that was written is the one that storage holds. -/
theorem Stores.replaced (h : Stores storage lowersHosts files rules) {part : Part}
    {changed : RuleSet} {data : Bytes} (kept : IsKept lowersHosts changed)
    (spares : part.Spares rules changed)
    (encoded : part.encode changed = .ok data)
    (written : Replaced files after (storage.fileOf part.key) data) :
    Stores storage lowersHosts after changed := by
  have shown := KeyedStorage.shows_of_replaced written (Part.valueIn_encode encoded _)
  have apart : hostsKey ≠ elementRulesKey := by decide
  cases part with
  | hosts =>
      obtain ⟨value, items, others, found, same⟩ := h.elementRules
      refine ⟨⟨_, _, shown, storedElements_array _, hostsOf_stored kept⟩,
        ⟨value, items, others.replaced apart.symm written, found, ?_⟩⟩
      rw [same]
      exact spares.symm
  | elementRules =>
      obtain ⟨value, items, others, found, same⟩ := h.hosts
      refine ⟨⟨value, items, others.replaced apart written, found, ?_⟩,
        ⟨_, _, shown, storedElements_array _, elementRulesOf_stored kept.elementRules_nodup⟩⟩
      rw [same]
      exact spares.symm

/-- What leaves both keys as they are leaves the rules in storage. -/
theorem Stores.mono (h : Stores storage lowersHosts files rules)
    (shows : ∀ part : Part, ∀ value, storage.Shows files part.key value →
      storage.Shows after part.key value) : Stores storage lowersHosts after rules := by
  obtain ⟨⟨hosts, hostItems, shown, found⟩, ⟨others, otherItems, shown', found'⟩⟩ := h
  exact ⟨⟨hosts, hostItems, shows .hosts hosts shown, found⟩,
    ⟨others, otherItems, shows .elementRules others shown', found'⟩⟩

theorem Stores.furnished (h : Stores storage lowersHosts files rules)
    (made : Furnished files after (files.origin storage.directory) storage.directory.parts) :
    Stores storage lowersHosts after rules :=
  h.mono fun _ _ shown => shown.furnished made

theorem Stores.avoided (h : Stores storage lowersHosts files rules) {target : Path} {data : Bytes}
    {result : Except Fault Unit} (write : Replaces files target data result after)
    (off : ∀ part : Part, storage.placeOf files part.key ∉ files.wayOf target) :
    Stores storage lowersHosts after rules :=
  h.mono fun part _ shown => shown.avoided write (off part)

end Writes

end RuleStore

end SiteFilter
