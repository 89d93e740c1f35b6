import Mathlib.Data.List.Forall2
import Mathlib.Data.List.Nodup
import TypedQuery.Entries

/-!
# Looking up named entries

What inserting and extending do to look-ups, to the names and to the members of a list of
named entries. A list without repeated names is the list that its pairs make.
-/

namespace TypedQuery.Entries

variable {α : Type} {entries more : Entries α} {name other : String} {value : α}

/-- A look-up takes the first entry if it has the name, and goes on otherwise. -/
theorem find?_cons {entry : String × α} :
    find? (entry :: entries) name =
      if name = entry.1 then some entry.2 else find? entries name := by
  obtain ⟨key, value⟩ := entry
  by_cases h : name = key
  · simp [find?, h]
  · have hne : (name == key) = false := beq_false_of_ne h
    simp only [find?, List.lookup_cons, hne, if_neg h]

/-- A value that is found stands in the list under its name. -/
theorem mem_of_find? (h : find? entries name = some value) : (name, value) ∈ entries := by
  induction entries with
  | nil => cases h
  | cons entry rest ih =>
    rw [find?_cons] at h
    split at h
    · cases h
      subst name
      exact List.mem_cons_self
    · exact List.mem_cons_of_mem _ (ih h)

/-- A name that stands among the entries is found. -/
theorem exists_find?_of_mem (h : (name, value) ∈ entries) :
    ∃ found, find? entries name = some found := by
  induction entries with
  | nil => cases h
  | cons entry rest ih =>
    rw [find?_cons]
    split
    · exact ⟨_, rfl⟩
    · rcases List.mem_cons.mp h with h | h
      · subst h
        contradiction
      · exact ih h

/-- A name is present exactly when it is among the names. -/
theorem contains_iff_mem_names : contains entries name = true ↔ name ∈ names entries := by
  rw [contains, Option.isSome_iff_exists, names, List.mem_map]
  constructor
  · rintro ⟨value, h⟩
    exact ⟨(name, value), mem_of_find? h, rfl⟩
  · rintro ⟨⟨_, value⟩, h, rfl⟩
    exact exists_find?_of_mem h

/-- After an insertion the name is found with the new value, and every other one as before. -/
theorem find?_insert :
    find? (insert entries name value) other =
      if other = name then some value else find? entries other := by
  induction entries with
  | nil => rw [insert, find?_cons]
  | cons entry rest ih =>
    rw [insert]
    split
    · rename_i h
      subst h
      rw [find?_cons, find?_cons]
      split <;> simp_all
    · rename_i h
      rw [find?_cons, find?_cons, ih]
      by_cases hother : other = name
      · subst hother
        simp [Ne.symm h]
      · simp [hother]

/-- An insertion adds its name. -/
theorem mem_names_insert :
    other ∈ names (insert entries name value) ↔ other = name ∨ other ∈ names entries := by
  rw [← contains_iff_mem_names, ← contains_iff_mem_names, contains, contains, find?_insert]
  split <;> simp_all

/-- An insertion repeats no name. -/
theorem nodup_names_insert (h : (names entries).Nodup) :
    (names (insert entries name value)).Nodup := by
  induction entries with
  | nil => simp [insert, names]
  | cons entry rest ih =>
    have hrest : entry.1 ∉ names rest ∧ (names rest).Nodup := List.nodup_cons.mp h
    rw [insert]
    split
    · rename_i heq
      exact List.nodup_cons.mpr (heq ▸ hrest)
    · rename_i hne
      refine List.nodup_cons.mpr ⟨?_, ih hrest.2⟩
      intro hmem
      rcases mem_names_insert.mp hmem with hname | hmem
      · exact hne hname
      · exact hrest.1 hmem

/-- A new name is put at the end. -/
theorem insert_of_notMem (h : name ∉ names entries) :
    insert entries name value = entries ++ [(name, value)] := by
  induction entries with
  | nil => rfl
  | cons entry rest ih =>
    have h' : name ≠ entry.1 ∧ name ∉ names rest := by simpa [names] using h
    rw [insert, if_neg (Ne.symm h'.1), ih h'.2, List.cons_append]

/-- Further entries add their names. -/
theorem mem_names_extend :
    name ∈ names (extend entries more) ↔ name ∈ names entries ∨ name ∈ names more := by
  induction more generalizing entries with
  | nil => simp [extend, names]
  | cons first rest ih =>
    rw [extend_cons, ih, mem_names_insert]
    simp only [names, List.map_cons, List.mem_cons]
    tauto

/-- Further entries can be inserted in two goes. -/
theorem extend_append {last : List (String × α)} :
    extend entries (more ++ last) = extend (extend entries more) last :=
  List.foldl_append

/-- What is found after extending comes from either part. -/
theorem find?_extend (h : find? (extend entries more) name = some value) :
    find? entries name = some value ∨ (name, value) ∈ more := by
  induction more generalizing entries with
  | nil => exact Or.inl h
  | cons first rest ih =>
    rw [extend_cons] at h
    rcases ih h with h | h
    · rw [find?_insert] at h
      split at h
      · cases h
        subst name
        exact Or.inr List.mem_cons_self
      · exact Or.inl h
    · exact Or.inr (List.mem_cons_of_mem _ h)

/-- Entries of other names do not change what is found. -/
theorem find?_extend_of_notMem (h : name ∉ names more) :
    find? (extend entries more) name = find? entries name := by
  induction more generalizing entries with
  | nil => rfl
  | cons first rest ih =>
    have hnew : name ≠ first.1 ∧ name ∉ names rest := by simpa [names] using h
    rw [extend_cons, ih hnew.2, find?_insert, if_neg hnew.1]

/-- What stands under a name that is repeated later is not kept. -/
theorem find?_extend_of_mem (h : name ∈ names more) :
    ∃ value, (name, value) ∈ more ∧ find? (extend entries more) name = some value := by
  induction more generalizing entries with
  | nil => cases h
  | cons first rest ih =>
    rw [extend_cons]
    by_cases hrest : name ∈ names rest
    · obtain ⟨value, hmem, hfind⟩ := ih hrest
      exact ⟨value, List.mem_cons_of_mem _ hmem, hfind⟩
    · have hname : name = first.1 := (List.mem_cons.mp h).resolve_right hrest
      subst hname
      refine ⟨first.2, List.mem_cons_self, ?_⟩
      rw [find?_extend_of_notMem hrest, find?_insert, if_pos rfl]

/-- Entries that repeat no name are put behind those that are there. -/
theorem extend_of_nodup (h : (names (entries ++ more)).Nodup) :
    extend entries more = entries ++ more := by
  induction more generalizing entries with
  | nil => simp [extend]
  | cons first rest ih =>
    have hnew : first.1 ∉ names entries := by
      intro hmem
      rw [names, List.map_append, List.nodup_append] at h
      exact h.2.2 _ hmem _ (List.mem_map_of_mem List.mem_cons_self) rfl
    rw [extend_cons, insert_of_notMem hnew, ih]
    · rw [List.append_assoc, List.singleton_append]
    · rwa [List.append_assoc, List.singleton_append]

/-- A list without repeated names is kept as it is. -/
theorem ofList_of_nodup {pairs : List (String × α)} (h : (names pairs).Nodup) :
    ofList pairs = pairs :=
  extend_of_nodup (show (names ([] ++ pairs)).Nodup from h)

/-- Further entries repeat no name. -/
theorem nodup_names_extend (h : (names entries).Nodup) : (names (extend entries more)).Nodup := by
  induction more generalizing entries with
  | nil => exact h
  | cons first rest ih => exact ih (nodup_names_insert h)

/-- A list of entries has each name once after repetitions are settled. -/
theorem nodup_names_ofList (pairs : List (String × α)) : (names (ofList pairs)).Nodup :=
  nodup_names_extend List.nodup_nil

/-- The last value of a name is kept. -/
theorem find?_ofList_of_notMem {before after : List (String × α)} (h : name ∉ names after) :
    find? (ofList (before ++ (name, value) :: after)) name = some value := by
  unfold ofList
  rw [extend_append, extend_cons, find?_extend_of_notMem h, find?_insert, if_pos rfl]

/-- What an item stands for is kept under its name if no later item has the name. -/
theorem find?_ofList_map {ι : Type} {before after : List ι} {item : ι} {key : ι → String}
    {content : ι → α} (h : ∀ later ∈ after, key later ≠ key item) :
    find? (ofList ((before ++ item :: after).map fun item => (key item, content item)))
      (key item) = some (content item) := by
  have hnames : key item ∉ names (after.map fun item => (key item, content item)) := by
    unfold names
    rw [List.map_map]
    intro hmem
    obtain ⟨later, hlater, hkey⟩ := List.mem_map.mp hmem
    exact h later hlater hkey
  rw [List.map_append, List.map_cons]
  exact find?_ofList_of_notMem hnames

/-- A value whose name is repeated gives way to one of those after it. -/
theorem find?_ofList_of_mem {before after : List (String × α)} (h : name ∈ names after) :
    ∃ later, (name, later) ∈ after ∧
      find? (ofList (before ++ (name, value) :: after)) name = some later := by
  unfold ofList
  rw [extend_append, extend_cons]
  exact find?_extend_of_mem h

/-- Entries are their names together with their values. -/
theorem zip_names_values : (names entries).zip (values entries) = entries := by
  unfold names values
  rw [List.zip_map']
  exact List.map_id entries

/-- A name that is erased is gone. -/
theorem notMem_names_erase : name ∉ names (erase entries name) := by
  intro h
  obtain ⟨entry, hentry, heq⟩ := List.mem_map.mp h
  exact of_decide_eq_true (List.mem_filter.mp hentry).2 heq

/-- An entry at the end is found if none before it has the name. -/
theorem find?_append_last :
    find? (entries ++ [(name, value)]) other =
      (find? entries other).or (if other = name then some value else none) := by
  induction entries with
  | nil => rw [List.nil_append, find?_cons]; rfl
  | cons entry rest ih =>
    rw [List.cons_append, find?_cons, find?_cons, ih]
    split
    · rfl
    · rfl

/-- Erasing a name leaves what is found under the others. -/
theorem find?_erase (hother : other ≠ name) :
    find? (erase entries name) other = find? entries other := by
  unfold erase
  induction entries with
  | nil => rfl
  | cons entry rest ih =>
    rw [List.filter_cons, find?_cons]
    split
    · rw [find?_cons, ih]
    · rename_i hname
      have heq : entry.1 = name := by simpa using hname
      rw [if_neg (fun h => hother (h.trans heq)), ih]

/-- Nothing is found under a name that is erased. -/
theorem find?_erase_self : find? (erase entries name) name = none := by
  rw [← Option.not_isSome_iff_eq_none]
  exact fun h => notMem_names_erase (contains_iff_mem_names.mp h)

/-- What is moved to the end is found there, and all others as before. -/
theorem find?_replace :
    find? (erase entries name ++ [(name, value)]) other =
      if other = name then some value else find? entries other := by
  rw [find?_append_last]
  split
  · rename_i hother
    rw [hother, find?_erase_self, Option.none_or]
  · rename_i hother
    rw [find?_erase hother, Option.or_none]

/-- Erasing a name and putting it at the end repeats no name. -/
theorem nodup_names_replace (h : (names entries).Nodup) :
    (names (erase entries name ++ [(name, value)])).Nodup := by
  have herase : (names (erase entries name)).Nodup :=
    h.sublist (List.filter_sublist.map Prod.fst)
  have hnames : names (erase entries name ++ [(name, value)]) =
      names (erase entries name) ++ [name] :=
    List.map_append
  rw [hnames]
  exact List.nodup_append_comm.mp (List.nodup_cons.mpr ⟨notMem_names_erase, herase⟩)

/-- In a list without repeated names, every entry is found. -/
theorem find?_of_mem_of_nodup (h : (names entries).Nodup) (hmem : (name, value) ∈ entries) :
    find? entries name = some value := by
  induction entries with
  | nil => cases hmem
  | cons entry rest ih =>
    obtain ⟨hfresh, hrest⟩ := List.nodup_cons.mp h
    rw [find?_cons]
    rcases List.mem_cons.mp hmem with rfl | hmem
    · rw [if_pos rfl]
    · rw [if_neg fun heq => hfresh (List.mem_map.mpr ⟨_, hmem, heq⟩)]
      exact ih hrest hmem

/-- Nothing changes where the value that is found is inserted. -/
theorem insert_of_find? (h : find? entries name = some value) :
    insert entries name value = entries := by
  induction entries with
  | nil => cases h
  | cons entry rest ih =>
    rw [find?_cons] at h
    unfold insert
    by_cases hname : entry.1 = name
    · rw [if_pos hname.symm] at h
      cases h
      rw [if_pos hname, ← hname]
    · rw [if_neg (Ne.symm hname)] at h
      rw [if_neg hname, ih h]

/-- An insertion changes nothing exactly if the value is there already. -/
theorem insert_eq_self_iff {found : α} (h : find? entries name = some found) :
    insert entries name value = entries ↔ value = found := by
  constructor
  · intro hsame
    have hvalue : find? (insert entries name value) name = some value := by
      rw [find?_insert, if_pos rfl]
    rw [hsame, h] at hvalue
    exact (Option.some.inj hvalue).symm
  · rintro rfl
    exact insert_of_find? h

/-- In a list without repeated names, inserting under a name that is present changes its value. -/
theorem insert_eq_map (hnodup : (names entries).Nodup) (h : name ∈ names entries) :
    insert entries name value =
      entries.map fun entry => (entry.1, if entry.1 = name then value else entry.2) := by
  induction entries with
  | nil => cases h
  | cons entry rest ih =>
    obtain ⟨hfresh, hrest⟩ := List.nodup_cons.mp hnodup
    rw [insert, List.map_cons]
    by_cases hname : entry.1 = name
    · have hothers : ∀ other ∈ rest,
          (other.1, if other.1 = name then value else other.2) = other := fun other hother => by
        have hne : other.1 ≠ name := fun heq =>
          hfresh (List.mem_map.mpr ⟨other, hother, heq.trans hname.symm⟩)
        rw [if_neg hne]
      rw [if_pos hname, if_pos hname, hname, List.map_congr_left hothers, List.map_id']
    · have hmem : name ∈ names rest := (List.mem_cons.mp h).resolve_left (Ne.symm hname)
      rw [if_neg hname, if_neg hname, ih hrest hmem]

/-- A look-up among what a function makes of entries. -/
theorem find?_mapEntries {β : Type} {f : String → α → β} :
    find? (entries.map fun entry => (entry.1, f entry.1 entry.2)) name =
      (find? entries name).map (f name) := by
  induction entries with
  | nil => rfl
  | cons entry rest ih =>
    rw [List.map_cons, find?_cons, find?_cons]
    split
    · rename_i hname
      rw [hname]
      rfl
    · exact ih

/-- The same names with what a function makes of their values. -/
def mapValues {β : Type} (f : α → β) (entries : Entries α) : Entries β :=
  entries.map fun entry => (entry.1, f entry.2)

/-- What is made of the values leaves the names. -/
theorem names_mapValues {β : Type} {f : α → β} : names (entries.mapValues f) = names entries := by
  unfold names mapValues
  rw [List.map_map]
  rfl

/-- A look-up finds what is made of the value. -/
theorem find?_mapValues {β : Type} {f : α → β} :
    find? (entries.mapValues f) name = (find? entries name).map f :=
  @find?_mapEntries α entries name β fun _ => f

/-- What a function makes of the name and the value is inserted under the name. -/
theorem mapEntries_insert {β : Type} {f : String → α → β} :
    ((insert entries name value).map fun entry => (entry.1, f entry.1 entry.2)) =
      insert (entries.map fun entry => (entry.1, f entry.1 entry.2)) name (f name value) := by
  induction entries with
  | nil => rfl
  | cons entry rest ih =>
    by_cases h : entry.1 = name
    · simp [insert, h]
    · simpa [insert, h] using ih

/-- What is made of names and values goes through further insertions. -/
theorem mapEntries_extend {β : Type} {f : String → α → β} :
    ((extend entries more).map fun entry => (entry.1, f entry.1 entry.2)) =
      extend (entries.map fun entry => (entry.1, f entry.1 entry.2))
        (more.map fun entry => (entry.1, f entry.1 entry.2)) := by
  induction more generalizing entries with
  | nil => rfl
  | cons first rest ih =>
    rw [extend_cons, ih, mapEntries_insert]
    rfl

/-- What is made of names and values can be made before repetitions are settled. -/
theorem ofList_mapEntries {β : Type} {f : String → α → β} {pairs : List (String × α)} :
    ofList (pairs.map fun entry => (entry.1, f entry.1 entry.2)) =
      (ofList pairs).map fun entry => (entry.1, f entry.1 entry.2) :=
  Eq.symm (mapEntries_extend : (extend [] pairs).map _ = _)

/-- What is made of the values goes through an insertion. -/
theorem mapValues_insert {β : Type} {f : α → β} :
    (insert entries name value).mapValues f = insert (entries.mapValues f) name (f value) :=
  @mapEntries_insert α entries name value β fun _ => f

/-- What is made of the values can be made before repetitions are settled. -/
theorem ofList_mapValues {β : Type} {f : α → β} {pairs : List (String × α)} :
    ofList (mapValues f pairs) = mapValues f (ofList pairs) :=
  @ofList_mapEntries α β (fun _ => f) pairs

/-- Entries with the same names in the same order and with related values. -/
def Related {β : Type} (related : α → β → Prop) (entries : Entries α) (others : Entries β) : Prop :=
  List.Forall₂ (fun entry other => entry.1 = other.1 ∧ related entry.2 other.2) entries others

namespace Related

variable {β : Type} {related : α → β → Prop} {others : Entries β} {exact : β}

/-- Related entries are so under every weaker relation. -/
theorem mono {weak : α → β → Prop} (h : Related related entries others)
    (himp : ∀ a b, related a b → weak a b) : Related weak entries others :=
  List.Forall₂.imp (fun _ _ h => ⟨h.1, himp _ _ h.2⟩) h

/-- Inserting related values under one name keeps entries related. -/
theorem insert (h : Related related entries others) (hvalue : related value exact) :
    Related related (Entries.insert entries name value) (Entries.insert others name exact) := by
  induction h with
  | nil => exact .cons ⟨rfl, hvalue⟩ .nil
  | cons hfirst hrest ih =>
    rw [Entries.insert, Entries.insert, hfirst.1]
    split
    · exact .cons ⟨rfl, hvalue⟩ hrest
    · exact .cons hfirst ih

/-- Related entries have the same names. -/
theorem names (h : Related related entries others) :
    Entries.names entries = Entries.names others := by
  induction h with
  | nil => rfl
  | cons hfirst _ ih => exact congrArg₂ List.cons hfirst.1 ih

/-- Related entries have related values, place by place. -/
theorem values (h : Related related entries others) :
    List.Forall₂ related (Entries.values entries) (Entries.values others) := by
  induction h with
  | nil => exact .nil
  | cons hfirst _ ih => exact .cons hfirst.2 ih

end Related

/-- Inserting under a name that is present changes nothing in the entries after it. -/
theorem insert_append_of_mem (h : name ∈ names entries) :
    insert (entries ++ more) name value = insert entries name value ++ more := by
  induction entries with
  | nil => cases h
  | cons entry rest ih =>
    rw [List.cons_append]
    unfold insert
    by_cases hname : entry.1 = name
    · rw [if_pos hname, if_pos hname]
      rfl
    · rw [if_neg hname, if_neg hname, ih ((List.mem_cons.mp h).resolve_left fun h => hname h.symm)]
      rfl

/-- From the end, the first entry is looked at last. -/
theorem find?_reverse_cons {entry : String × α} :
    find? (entry :: entries).reverse name =
      (find? entries.reverse name).or (if name = entry.1 then some entry.2 else none) := by
  unfold find?
  rw [List.reverse_cons, List.lookup_append]
  exact congrArg _ find?_cons

/-- Looked up from the end, nothing changes where an entry is inserted once more. -/
theorem find?_reverse_insert (h : (name, value) ∈ entries) :
    find? (insert entries name value).reverse other = find? entries.reverse other := by
  induction entries with
  | nil => cases h
  | cons entry rest ih =>
    unfold insert
    by_cases hname : entry.1 = name
    · rw [if_pos hname, find?_reverse_cons, find?_reverse_cons, hname]
      by_cases hother : other = name
      · subst hother
        rcases List.mem_cons.mp h with hentry | hrest
        · rw [← hentry]
        · obtain ⟨found, hfound⟩ := exists_find?_of_mem (List.mem_reverse.mpr hrest)
          rw [hfound]
          rfl
      · rw [if_neg hother, if_neg hother]
    · have hrest := (List.mem_cons.mp h).resolve_left fun h => hname (congrArg Prod.fst h).symm
      rw [if_neg hname, find?_reverse_cons, find?_reverse_cons, ih hrest]

/-- Looked up from the end, nothing changes where entries are inserted once more. -/
theorem find?_reverse_extend_append (more : List (String × α)) (entries : Entries α) :
    find? (extend (entries ++ more) more).reverse name = find? (entries ++ more).reverse name := by
  induction more generalizing entries with
  | nil => rfl
  | cons entry rest ih =>
    have hsplit : entries ++ entry :: rest = (entries ++ [entry]) ++ rest := by simp
    have hmem : entry.1 ∈ names (entries ++ [entry]) :=
      List.mem_map_of_mem (List.mem_append_right _ (List.mem_singleton.mpr rfl))
    have hinsert : insert (entries ++ entry :: rest) entry.1 entry.2 =
        insert (entries ++ [entry]) entry.1 entry.2 ++ rest := by
      rw [hsplit, insert_append_of_mem hmem]
    change find? (extend (insert (entries ++ entry :: rest) entry.1 entry.2) rest).reverse name = _
    rw [hinsert, ih, ← hinsert]
    exact find?_reverse_insert (List.mem_append_right _ List.mem_cons_self)

/-- Entries with different names are found from the end as from the start. -/
theorem find?_reverse_of_nodup (h : (names entries).Nodup) :
    find? entries.reverse name = find? entries name := by
  have hreverse : (names entries.reverse).Nodup := by
    unfold names
    rw [List.map_reverse]
    exact List.nodup_reverse.mpr h
  cases hfind : find? entries name with
  | some value => exact find?_of_mem_of_nodup hreverse (List.mem_reverse.mpr (mem_of_find? hfind))
  | none =>
    cases hfound : find? entries.reverse name with
    | none => rfl
    | some value =>
      have hvalue := find?_of_mem_of_nodup h (List.mem_reverse.mp (mem_of_find? hfound))
      cases hfind.symm.trans hvalue

/-- The value under a name is the last one that was inserted. -/
theorem find?_extend_eq_or :
    find? (extend entries more) name = (find? more.reverse name).or (find? entries name) := by
  induction more generalizing entries with
  | nil => rfl
  | cons entry rest ih =>
    rw [extend_cons, ih, find?_insert, find?_reverse_cons, Option.or_assoc]
    split <;> rfl

/-- Settling repetitions keeps what is found from the end. -/
theorem find?_reverse_ofList (pairs : List (String × α)) :
    find? (ofList pairs).reverse name = find? pairs.reverse name :=
  (find?_reverse_of_nodup (nodup_names_ofList pairs)).trans
    (find?_extend_eq_or.trans Option.or_none)

/-- Nothing is found exactly under the names that are not there. -/
theorem find?_eq_none_iff : find? entries name = none ↔ name ∉ names entries := by
  rw [← contains_iff_mem_names, contains, Option.not_isSome_iff_eq_none]

/-- From the end too, nothing is found exactly under the names that are not there. -/
theorem find?_reverse_eq_none_iff : find? entries.reverse name = none ↔ name ∉ names entries := by
  rw [find?_eq_none_iff, names, List.map_reverse, List.mem_reverse]
  rfl

/-- The value is the last one under a name. -/
def LastUnder (entries : Entries α) (name : String) (value : α) : Prop :=
  ∃ before after, entries = before ++ (name, value) :: after ∧ name ∉ names after

/-- Looking up from the end finds the last value. -/
theorem find?_reverse_eq_some_iff :
    find? entries.reverse name = some value ↔ entries.LastUnder name value := by
  unfold find?
  rw [List.lookup_eq_some_iff]
  constructor
  · rintro ⟨after, before, hsplit, hafter⟩
    refine ⟨before.reverse, after.reverse, ?_, ?_⟩
    · rw [← List.reverse_reverse entries, hsplit]
      simp
    · intro hmem
      obtain ⟨entry, hentry, heq⟩ := List.mem_map.mp hmem
      exact absurd heq.symm (by simpa using hafter entry (List.mem_reverse.mp hentry))
  · rintro ⟨before, after, rfl, hafter⟩
    refine ⟨after.reverse, before.reverse, by simp, fun entry hentry => ?_⟩
    have hne : name ≠ entry.1 := fun heq =>
      hafter (heq ▸ List.mem_map_of_mem (List.mem_reverse.mp hentry))
    simpa using hne

/-- There is one last value under a name at most. -/
theorem LastUnder.unique {found : α} (h : entries.LastUnder name value)
    (hfound : entries.LastUnder name found) : value = found :=
  Option.some.inj ((find?_reverse_eq_some_iff.mpr h).symm.trans
    (find?_reverse_eq_some_iff.mpr hfound))

/-- A name with a last value is there. -/
theorem LastUnder.mem_names (h : entries.LastUnder name value) : name ∈ names entries := by
  obtain ⟨before, after, rfl, -⟩ := h
  simp [names]

/-- A name that is there has a last value. -/
theorem exists_lastUnder (h : name ∈ names entries) : ∃ value, entries.LastUnder name value := by
  cases hfind : find? entries.reverse name with
  | some value => exact ⟨value, find?_reverse_eq_some_iff.mp hfind⟩
  | none => exact absurd h (find?_reverse_eq_none_iff.mp hfind)

/-- Of pairs of one name the last one is found among the entries that they make. -/
theorem find?_ofList_eq_some_iff {pairs : List (String × α)} :
    find? (ofList pairs) name = some value ↔ LastUnder pairs name value := by
  rw [← find?_reverse_of_nodup (nodup_names_ofList pairs), find?_reverse_ofList]
  exact find?_reverse_eq_some_iff

namespace Related

variable {β : Type} {related : α → β → Prop} {others : Entries β}

/-- Related entries are related from the end too. -/
theorem reverse (h : Related related entries others) :
    Related related entries.reverse others.reverse :=
  List.forall₂_reverse_iff.mpr h

/-- What is found under one name in related entries is related. -/
theorem find? (h : Related related entries others)
    (hvalue : Entries.find? entries name = some value) :
    ∃ found, Entries.find? others name = some found ∧ related value found := by
  induction h with
  | nil => cases hvalue
  | @cons entry other rest others hfirst _ ih =>
    rw [find?_cons] at hvalue ⊢
    rw [← hfirst.1]
    split at hvalue
    · rename_i hname
      cases hvalue
      exact ⟨other.2, if_pos hname, hfirst.2⟩
    · rename_i hname
      rw [if_neg hname]
      exact ih hvalue

/-- The last values under one name in related entries are related. -/
theorem lastUnder (h : Related related entries others) (hvalue : entries.LastUnder name value) :
    ∃ found, others.LastUnder name found ∧ related value found := by
  obtain ⟨found, hfound, hrelated⟩ := h.reverse.find? (find?_reverse_eq_some_iff.mpr hvalue)
  exact ⟨found, find?_reverse_eq_some_iff.mp hfound, hrelated⟩

end Related

end TypedQuery.Entries

namespace TypedQuery

/-- Fewer items are left whose names are not taken when the name of one more of them is. -/
theorem length_filter_notMem_cons_lt {α β : Type} [BEq β] [LawfulBEq β] (name : α → β)
    {items : List α} {item : α} {taken : List β} (hmem : item ∈ items)
    (hfree : name item ∉ taken) :
    (items.filter fun other => name other ∉ name item :: taken).length <
      (items.filter fun other => name other ∉ taken).length := by
  have hsub : (items.filter fun other => name other ∉ name item :: taken) =
      (items.filter fun other => name other ∉ taken).filter
        fun other => !(name other == name item) := by
    rw [List.filter_filter]
    refine List.filter_congr fun other _ => ?_
    rw [Bool.eq_iff_iff]
    simp [List.mem_cons, not_or]
  rw [hsub]
  refine List.length_filter_lt_length_iff_exists.mpr ⟨item, ?_, by simp⟩
  exact List.mem_filter.mpr ⟨hmem, decide_eq_true hfree⟩

end TypedQuery
