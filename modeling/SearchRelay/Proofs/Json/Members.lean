import SearchRelay.Proofs.Json.Readers

/-!
# Records that are read

What a record takes is told by its kinds of members: the name of each, the texts
of its value, and what it changes. A member whose field is filled cannot enter,
and one that is no field changes nothing.
-/

namespace SearchRelay.Json

structure Kinds (σ μ : Type) where
  name : μ → String
  Says : μ → List Char → Prop
  enter : σ → μ → Option σ

section
variable {σ μ : Type}

/-- A field reads the members of its name, and each of them once. -/
structure Field.Takes (kinds : Kinds σ μ) (field : Field σ) : Prop where
  read : ∀ {x y : σ} {s r : List Char}, field.filled x = false →
    (field.read x s = .ok (y, r) ↔ ∃ m after v, kinds.name m = field.name ∧ Blank after ∧ kinds.Says m v ∧
      kinds.enter x m = some y ∧ s = after ++ (v ++ r))
  once : ∀ {x : σ} {m : μ}, field.filled x = true → kinds.name m = field.name → kinds.enter x m = none
  enters : ∀ {x : σ} {m : μ}, field.filled x = false → kinds.name m = field.name →
    ∃ y, kinds.enter x m = some y ∧ field.filled y = true
  starts : ∀ {m : μ} {v : List Char}, kinds.name m = field.name → kinds.Says m v →
    ∃ c t, v = c :: t ∧ c ∈ ['"', '[', '{', 'n']
  others : ∀ {x y : σ} {m : μ}, kinds.enter x m = some y → kinds.name m ≠ field.name →
    field.filled y = field.filled x

structure Record.Takes (kinds : Kinds σ μ) (record : Record σ) : Prop where
  fields : ∀ field ∈ record.fields, field.Takes kinds
  distinct : (record.fields.map (·.name)).Nodup
  passed : ∀ {key : String} {v : List Char}, key ∉ record.fields.map (·.name) →
    (Value v ↔ ∃ m, kinds.name m = key ∧ kinds.Says m v)
  same : ∀ {x : σ} {m : μ}, kinds.name m ∉ record.fields.map (·.name) → kinds.enter x m = some x

theorem Field.takes_of {α : Type} {kinds : Kinds σ μ} {name : String} {required : Bool} {inner : Reader α}
    {filled : σ → Bool} {fill : σ → α → σ} {Says : α → List Char → Prop} (make : α → μ)
    (reads : Reads inner.read Says) (named : ∀ m, kinds.name m = name ↔ ∃ a, m = make a)
    (same : ∀ a, kinds.Says (make a) = Says a)
    (enter : ∀ x a, kinds.enter x (make a) = if filled x then none else some (fill x a))
    (full : ∀ x a, filled (fill x a) = true)
    (others : ∀ {x y m}, kinds.enter x m = some y → kinds.name m ≠ name → filled y = filled x) :
    (Field.of name required inner filled fill).Takes kinds where
  read := by
    intro x y s r hx
    simp only [Field.of] at hx ⊢
    constructor
    · intro h
      obtain ⟨⟨a, r⟩, ha, he⟩ := Result.map_eq_ok.1 h
      cases he
      obtain ⟨after, v, hb, hv, rfl⟩ := reads.eq_ok_iff.1 ha
      refine ⟨make a, after, v, (named _).2 ⟨a, rfl⟩, hb, ?_, ?_, rfl⟩
      · rwa [same]
      · rw [enter, hx, if_neg Bool.false_ne_true]
    · rintro ⟨m, after, v, hm, hb, hv, he, rfl⟩
      obtain ⟨a, rfl⟩ := (named m).1 hm
      rw [same] at hv
      rw [enter, hx, if_neg Bool.false_ne_true] at he
      cases he
      exact Result.map_eq_ok.2 ⟨(a, r), reads.eq_ok_iff.2 ⟨after, v, hb, hv, rfl⟩, rfl⟩
  once := by
    intro x m hx hm
    obtain ⟨a, rfl⟩ := (named m).1 hm
    rw [enter, show filled x = true from hx, if_pos rfl]
  enters := by
    intro x m hx hm
    obtain ⟨a, rfl⟩ := (named m).1 hm
    rw [enter, show filled x = false from hx, if_neg Bool.false_ne_true]
    exact ⟨_, rfl, full x a⟩
  starts := by
    intro m v hm hv
    obtain ⟨a, rfl⟩ := (named m).1 hm
    rw [same] at hv
    exact reads.starts hv
  others := others

variable {kinds : Kinds σ μ} {record : Record σ}

theorem Record.Takes.find? (h : record.Takes kinds) {field : Field σ} (hf : field ∈ record.fields) :
    record.fields.find? (fun f => f.name == field.name) = some field := by
  obtain ⟨before, after, hs⟩ := List.append_of_mem hf
  have distinct := h.distinct
  rw [hs, List.map_append, List.nodup_append] at distinct
  refine List.find?_eq_some_iff_append.2 ⟨beq_self_eq_true _, before, after, hs, fun f hb => ?_⟩
  have apart := distinct.2.2 f.name (List.mem_map_of_mem hb) field.name (List.mem_map_of_mem List.mem_cons_self)
  rw [beq_eq_false_iff_ne.2 apart]
  rfl

theorem Record.Takes.eq_of_name (h : record.Takes kinds) {f g : Field σ} (hf : f ∈ record.fields)
    (hg : g ∈ record.fields) (name : f.name = g.name) : f = g := by
  have found := h.find? hf
  rw [name, h.find? hg] at found
  exact (Option.some.inj found).symm

/-- Members enter one after the other if none comes twice and none comes to a field that is filled. -/
theorem Record.Takes.foldlM_iff (h : record.Takes kinds) {members : List μ} {x : σ} :
    (∃ y, members.foldlM kinds.enter x = some y) ↔ ∀ field ∈ record.fields,
      (members.map kinds.name).count field.name + (if field.filled x then 1 else 0) ≤ 1 := by
  induction members generalizing x with
  | nil =>
    refine ⟨fun _ field _ => ?_, fun _ => ⟨x, rfl⟩⟩
    rw [List.map_nil, List.count_nil]
    split <;> omega
  | cons m members ih =>
    have count : ∀ key, ((m :: members).map kinds.name).count key =
        (members.map kinds.name).count key + if kinds.name m = key then 1 else 0 := by
      intro key
      rw [List.map_cons, List.count_cons]
      simp only [beq_iff_eq]
    simp only [List.foldlM_cons, count]
    by_cases known : kinds.name m ∈ record.fields.map (·.name)
    · obtain ⟨field, hf, hname⟩ := List.mem_map.1 known
      have takes := h.fields field hf
      cases hx : field.filled x with
      | true =>
        rw [takes.once hx hname.symm]
        refine ⟨fun ⟨y, hy⟩ => (nomatch hy), fun all => ?_⟩
        have := all field hf
        rw [if_pos hname.symm, hx, if_pos rfl] at this
        omega
      | false =>
        obtain ⟨z, hz, full⟩ := takes.enters hx hname.symm
        rw [hz]
        refine ih.trans (forall₂_congr fun g hg => ?_)
        by_cases same : kinds.name m = g.name
        · rw [h.eq_of_name hg hf (same.symm.trans hname.symm), full, hx, if_pos hname.symm]
          simp
        · rw [(h.fields g hg).others hz same, if_neg same, Nat.add_zero]
    · rw [h.same known]
      refine ih.trans (forall₂_congr fun g hg => ?_)
      have other : kinds.name m ≠ g.name := fun same => known (same ▸ List.mem_map_of_mem hg)
      rw [if_neg other, Nat.add_zero]

theorem Record.find?_eq_none_iff {key : String} :
    record.fields.find? (fun f => f.name == key) = none ↔ key ∉ record.fields.map (·.name) := by
  simp [List.find?_eq_none]

theorem Record.find?_required {y : σ} : record.fields.find? (fun f => f.required && !f.filled y) = none ↔
    ∀ field ∈ record.fields, field.required = true → field.filled y = true := by
  rw [List.find?_eq_none]
  simp

/-! ## Objects -/

theorem Record.readMembers_passed {first : Bool} {x : σ} {s t r u r' key : List Char}
    (next : nextKey first s = .ok (.item t)) (text : readText t = .ok (key, r))
    (unknown : record.fields.find? (fun f => f.name == String.ofList key) = none)
    (colon : readColon r = .ok u) (value : skipValue u = .ok r') :
    record.readMembers first x s = record.readMembers false x r' := by
  rw [Record.readMembers]
  split
  · next h => rw [next] at h; cases h
  · next h => rw [next] at h; cases h
  next h =>
  rw [next] at h
  cases h
  split
  · next h => rw [text] at h; cases h
  next h =>
  rw [text] at h
  cases h
  dsimp only
  rw [unknown]
  dsimp only
  split
  · next h => rw [colon] at h; cases h
  next h =>
  rw [colon] at h
  cases h
  split
  · next h => rw [value] at h; cases h
  next h =>
  rw [value] at h
  cases h
  rfl

theorem Parts.ends {close : Char} {α : Type} {Says : α → List Char → Prop} {as : List α} {s : List Char}
    (h : Parts close Says false as s) (hc : close ∈ [',', ']', '}']) (r : List Char) : Ends (s ++ r) := by
  cases h with
  | close hb =>
    rw [List.append_assoc]
    exact ends_of_blank hb hc
  | part hl =>
    cases hl with
    | comma hb ha =>
      simp only [List.append_assoc, List.cons_append]
      exact ends_of_blank hb (by decide)

def Kinds.Part (kinds : Kinds σ μ) (m : μ) (s : List Char) : Prop := MemberText (kinds.name m) (kinds.Says m) s

theorem Record.parts_of_readMembers (h : record.Takes kinds) {first : Bool} {x y : σ} {s r : List Char}
    (hr : record.readMembers first x s = .ok (y, r)) :
    ∃ members t, Parts '}' kinds.Part first members t ∧ members.foldlM kinds.enter x = some y ∧
      (∀ field ∈ record.fields, field.required = true → field.filled y = true) ∧ s = t ++ r := by
  have part : ∀ {first s t key u after v r' members rest x z} {m : μ}, nextKey first s = .ok (.item t) →
      readText t = .ok (key, u) → readColon u = .ok (after ++ (v ++ r')) → kinds.name m = String.ofList key →
      Blank after → kinds.Says m v → kinds.enter x m = some z → Parts '}' kinds.Part false members rest →
      members.foldlM kinds.enter z = some y → r' = rest ++ r →
      ∃ members t, Parts '}' kinds.Part first members t ∧ members.foldlM kinds.enter x = some y ∧ s = t ++ r := by
    intro first s t key u after v r' members rest x z m hn hk hc hm ha hv he hrest hmembers heq
    rw [heq] at hc
    rw [← String.toList_ofList (l := key), ← hm] at hk
    obtain ⟨lead, hl, rfl⟩ := nextKey_eq_item_iff.1 hn
    obtain ⟨p, hp, ht⟩ := memberText_iff.2 ⟨u, after, v, hk, hc, ha, hv⟩
    refine ⟨m :: members, _, .part hl hp hrest, ?_, by rw [ht]; simp⟩
    rw [List.foldlM_cons, he]
    exact hmembers
  fun_induction Record.readMembers record first x s with
  | case1 => cases hr
  | case2 => cases hr
  | case3 first x s r' hn full =>
    cases hr
    obtain ⟨blank, hb, rfl⟩ := nextKey_eq_stop_iff.1 hn
    exact ⟨[], _, .close hb, rfl, find?_required.1 full, by simp⟩
  | case4 => cases hr
  | case5 => cases hr
  | case6 => cases hr
  | case7 => cases hr
  | case8 first x s t hn key u hk _ field hf hx w hc z r' hv _ ih =>
    obtain ⟨members, rest, hrest, hmembers, hfull, heq⟩ := ih hr
    have mem := List.mem_of_find?_eq_some hf
    have name : field.name = String.ofList key := by simpa using List.find?_some hf
    obtain ⟨m, after, v, hm, ha, hsays, he, rfl⟩ :=
      ((h.fields field mem).read (Bool.not_eq_true _ ▸ hx)).1 hv
    obtain ⟨members, t, ht, hfold, hs⟩ := part hn hk hc (hm.trans name) ha hsays he hrest hmembers heq
    exact ⟨members, t, ht, hfold, hfull, hs⟩
  | case9 => cases hr
  | case10 => cases hr
  | case11 first x s t hn key u hk _ hf w hc r' hv _ ih =>
    obtain ⟨members, rest, hrest, hmembers, hfull, heq⟩ := ih hr
    have unknown := find?_eq_none_iff.1 hf
    obtain ⟨after, v, ha, hvalue, rfl⟩ := skipValue_eq_ok hv
    obtain ⟨m, hm, hsays⟩ := (h.passed unknown).1 hvalue
    have he : kinds.enter x m = some x := h.same (hm ▸ unknown)
    obtain ⟨members, t, ht, hfold, hs⟩ := part hn hk hc hm ha hsays he hrest hmembers heq
    exact ⟨members, t, ht, hfold, hfull, hs⟩

theorem Record.readMembers_of_parts (h : record.Takes kinds) {first : Bool} {members : List μ} {t : List Char}
    (ht : Parts '}' kinds.Part first members t) {x y : σ} (hm : members.foldlM kinds.enter x = some y)
    (full : ∀ field ∈ record.fields, field.required = true → field.filled y = true) (r : List Char) :
    record.readMembers first x (t ++ r) = .ok (y, r) := by
  induction ht generalizing x with
  | close hb =>
    cases hm
    rw [List.append_assoc]
    exact readMembers_stop (nextKey_eq_stop_iff.2 ⟨_, hb, rfl⟩) (find?_required.2 full)
  | @part first m members lead p rest hl hp hrest ih =>
    rw [List.foldlM_cons] at hm
    obtain ⟨z, hz, hm⟩ := Option.bind_eq_some_iff.1 hm
    obtain ⟨body, hbody⟩ : ∃ body, p = '"' :: body := by
      obtain ⟨_, _, _, _, ⟨body, _, rfl⟩, _, _, _, rfl⟩ := hp
      exact ⟨_, rfl⟩
    obtain ⟨u, after, v, text, colon, ha, hv⟩ :=
      memberText_iff.1 ⟨p, hp, show '"' :: (body ++ (rest ++ r)) = p ++ (rest ++ r) by rw [hbody]; rfl⟩
    have next : nextKey first (lead ++ (p ++ (rest ++ r))) = .ok (.item (body ++ (rest ++ r))) :=
      nextKey_eq_item_iff.2 ⟨lead, hl, by rw [hbody]; rfl⟩
    rw [List.append_assoc, List.append_assoc]
    by_cases known : kinds.name m ∈ record.fields.map (·.name)
    · obtain ⟨field, hf, hname⟩ := List.mem_map.1 known
      have takes := h.fields field hf
      have fresh : field.filled x = false := by
        rw [← Bool.not_eq_true]
        intro hx
        rw [takes.once hx hname.symm] at hz
        cases hz
      have read : field.read x (after ++ (v ++ (rest ++ r))) = .ok (z, rest ++ r) :=
        (takes.read fresh).2 ⟨m, after, v, hname.symm, ha, hv, hz, rfl⟩
      have found := h.find? hf
      rw [hname, ← String.ofList_toList (s := kinds.name m)] at found
      rw [readMembers_field next text found fresh colon read]
      exact ih hm
    · rw [h.same known] at hz
      cases hz
      have value : skipValue (after ++ (v ++ (rest ++ r))) = .ok (rest ++ r) :=
        skipValue_of_value ha ((h.passed known).2 ⟨m, rfl, hv⟩) (hrest.ends (by decide) r)
      rw [readMembers_passed next text (find?_eq_none_iff.2 (by rwa [String.ofList_toList])) colon value]
      exact ih hm

/-! ## Lists -/

theorem closeList_eq_ok_iff {s r : List Char} : closeList s = .ok r ↔
    ∃ blank, Blank blank ∧ s = blank ++ ']' :: r := by
  constructor
  · intro h
    unfold closeList at h
    split at h
    · cases h
    · next rest hs =>
      cases h
      exact exists_blank_of_skipSpace hs
    · split at h <;> cases h
    · cases h
  · rintro ⟨blank, hb, rfl⟩
    rw [closeList, skipSpace_append hb ⟨']', r, rfl, rfl⟩]
    rfl

theorem fresh_of_enter {field : Field σ} {fields : List (Field σ)} (takes : ∀ f ∈ fields, f.Takes kinds)
    (distinct : ((field :: fields).map (·.name)).Nodup) {x z : σ}
    (fresh : ∀ f ∈ fields, f.filled x = false) {m : μ}
    (hm : kinds.name m = field.name) (hz : kinds.enter x m = some z) : ∀ f ∈ fields, f.filled z = false := by
  intro f hf
  rw [(takes f hf).others hz, fresh f hf]
  intro same
  rw [List.map_cons, List.nodup_cons, ← hm, same] at distinct
  exact distinct.1 (List.mem_map_of_mem hf)

/-- Members that fill the first fields in their order, where no field that is left over is required. -/
structure Fills (kinds : Kinds σ μ) (fields : List (Field σ)) (members : List μ) (x y : σ) : Prop where
  names : members.map kinds.name <+: fields.map (·.name)
  fold : members.foldlM kinds.enter x = some y
  optional : ∀ f ∈ fields.drop members.length, f.required = false

theorem fills_nil {fields : List (Field σ)} {x y : σ} :
    Fills kinds fields [] x y ↔ x = y ∧ ∀ f ∈ fields, f.required = false := by
  constructor
  · intro h
    exact ⟨Option.some.inj h.fold, h.optional⟩
  · rintro ⟨rfl, optional⟩
    exact ⟨List.nil_prefix, rfl, optional⟩

theorem fills_cons {field : Field σ} {fields : List (Field σ)} {m : μ} {members : List μ} {x y : σ} :
    Fills kinds (field :: fields) (m :: members) x y ↔
      kinds.name m = field.name ∧ ∃ z, kinds.enter x m = some z ∧ Fills kinds fields members z y := by
  constructor
  · intro h
    have names := h.names
    have fold := h.fold
    rw [List.map_cons, List.map_cons, List.cons_prefix_cons] at names
    rw [List.foldlM_cons] at fold
    obtain ⟨z, hz, fold⟩ := Option.bind_eq_some_iff.1 fold
    exact ⟨names.1, z, hz, names.2, fold, h.optional⟩
  · rintro ⟨hm, z, hz, names, fold, optional⟩
    refine ⟨?_, ?_, optional⟩
    · rw [List.map_cons, List.map_cons, hm]
      exact (List.prefix_cons_inj _).2 names
    · rw [List.foldlM_cons, hz]
      exact fold

theorem Record.positions_of_readPositions {fields : List (Field σ)} (takes : ∀ f ∈ fields, f.Takes kinds)
    (distinct : (fields.map (·.name)).Nodup) {n : Nat} {x y : σ} {s r : List Char}
    (fresh : ∀ f ∈ fields, f.filled x = false) (h : record.readPositions fields n x s = .ok (y, r)) :
    ∃ members t, Parts ']' kinds.Says (n == 0) members t ∧ Fills kinds fields members x y ∧ s = t ++ r := by
  induction fields generalizing n x s with
  | nil =>
    rw [readPositions, Result.map_eq_ok] at h
    obtain ⟨r', hc, he⟩ := h
    cases he
    obtain ⟨blank, hb, rfl⟩ := closeList_eq_ok_iff.1 hc
    exact ⟨[], _, .close hb, fills_nil.2 ⟨rfl, by simp⟩, by simp⟩
  | cons field fields ih =>
    have takes' : ∀ f ∈ fields, f.Takes kinds := fun f hf => takes f (List.mem_cons_of_mem _ hf)
    have fresh' : ∀ f ∈ fields, f.filled x = false := fun f hf => fresh f (List.mem_cons_of_mem _ hf)
    rw [readPositions] at h
    split at h
    · cases h
    · next r' hn =>
      split at h
      · cases h
      next optional =>
      cases h
      obtain ⟨blank, hb, rfl⟩ := nextItem_eq_stop_iff.1 hn
      exact ⟨[], _, .close hb, fills_nil.2 ⟨rfl, by simpa using optional⟩, by simp⟩
    · next t hn =>
      split at h
      · cases h
      next z r' hr =>
      have taken := takes field List.mem_cons_self
      obtain ⟨m, after, v, hm, ha, hv, hz, rfl⟩ := (taken.read (fresh field List.mem_cons_self)).1 hr
      obtain ⟨members, rest, hrest, fills, rfl⟩ :=
        ih takes' (List.nodup_cons.1 distinct).2 (fresh_of_enter takes' distinct fresh' hm hz) h
      obtain ⟨lead, hl, rfl⟩ := lead_of_nextItem hn ha
      exact ⟨m :: members, _, .part hl hv hrest, fills_cons.2 ⟨hm, z, hz, fills⟩, by simp⟩

theorem Record.readPositions_of_positions {fields : List (Field σ)} (takes : ∀ f ∈ fields, f.Takes kinds)
    (distinct : (fields.map (·.name)).Nodup) {n : Nat} {x y : σ} {members : List μ} {t : List Char}
    (fresh : ∀ f ∈ fields, f.filled x = false) (ht : Parts ']' kinds.Says (n == 0) members t)
    (fills : Fills kinds fields members x y) (r : List Char) :
    record.readPositions fields n x (t ++ r) = .ok (y, r) := by
  induction fields generalizing n x members t with
  | nil =>
    obtain rfl : members = [] := by simpa using fills.names
    obtain ⟨rfl, _⟩ := fills_nil.1 fills
    cases ht with
    | close hb =>
      rw [readPositions, Result.map_eq_ok]
      exact ⟨r, closeList_eq_ok_iff.2 ⟨_, hb, by simp⟩, rfl⟩
  | cons field fields ih =>
    have takes' : ∀ f ∈ fields, f.Takes kinds := fun f hf => takes f (List.mem_cons_of_mem _ hf)
    have fresh' : ∀ f ∈ fields, f.filled x = false := fun f hf => fresh f (List.mem_cons_of_mem _ hf)
    rw [readPositions]
    cases ht with
    | @close _ blank hb =>
      obtain ⟨rfl, optional⟩ := fills_nil.1 fills
      have stop : nextItem (n == 0) (blank ++ ([']'] ++ r)) = .ok (.stop r) := nextItem_eq_stop_iff.2 ⟨_, hb, rfl⟩
      rw [List.append_assoc, stop]
      exact if_neg (by simpa using optional)
    | @part _ m members lead v rest hl hv hrest =>
      obtain ⟨hm, z, hz, fills⟩ := fills_cons.1 fills
      have taken := takes field List.mem_cons_self
      obtain ⟨c, u, rfl, hc⟩ := taken.starts hm hv
      have item : nextItem (n == 0) (lead ++ (c :: u ++ (rest ++ r))) = .ok (.item (c :: u ++ (rest ++ r))) :=
        nextItem_of_lead hl hc
      have read : field.read x (c :: u ++ (rest ++ r)) = .ok (z, rest ++ r) :=
        (taken.read (fresh field List.mem_cons_self)).2 ⟨m, [], c :: u, hm, List.nil_subset _, hv, hz, rfl⟩
      rw [List.append_assoc, List.append_assoc, item]
      dsimp only
      rw [read]
      exact ih takes' (List.nodup_cons.1 distinct).2 (fresh_of_enter takes' distinct fresh' hm hz) hrest fills

/-! ## Either shape -/

/-- The texts of a record: an object of members, none of them twice, or the values of the first fields in order. -/
def Record.Text (record : Record σ) (kinds : Kinds σ μ) (start y : σ) (s : List Char) : Prop :=
  ∃ members, members.foldlM kinds.enter start = some y ∧
    (ObjectText kinds.Part members s ∧ (∀ f ∈ record.fields, f.required = true → f.filled y = true) ∨
      ListText kinds.Says members s ∧ members.map kinds.name <+: record.fields.map (·.name) ∧
        ∀ f ∈ record.fields.drop members.length, f.required = false)

theorem reads_record (h : record.Takes kinds) {start : σ} (fresh : ∀ f ∈ record.fields, f.filled start = false) :
    Reads (record.reader start).read (record.Text kinds start) where
  eq_ok_iff := by
    intro s r y
    constructor
    · intro hr
      simp only [Record.reader] at hr
      split at hr
      · cases hr
      · next rest hs =>
        obtain ⟨members, t, ht, fills, rfl⟩ := Record.positions_of_readPositions h.fields h.distinct fresh hr
        obtain ⟨blank, hb, rfl⟩ := exists_blank_of_skipSpace hs
        exact ⟨blank, '[' :: t, hb,
          ⟨members, fills.fold, .inr ⟨⟨t, ht, rfl⟩, fills.names, fills.optional⟩⟩, rfl⟩
      · next rest hs =>
        obtain ⟨members, t, ht, fold, full, rfl⟩ := Record.parts_of_readMembers h hr
        obtain ⟨blank, hb, rfl⟩ := exists_blank_of_skipSpace hs
        exact ⟨blank, '{' :: t, hb, ⟨members, fold, .inl ⟨⟨t, ht, rfl⟩, full⟩⟩, rfl⟩
      · cases hr
    · rintro ⟨blank, _, hb,
        ⟨members, fold, ⟨⟨t, ht, rfl⟩, full⟩ | ⟨⟨t, ht, rfl⟩, names, optional⟩⟩, rfl⟩
      · simp only [Record.reader, List.cons_append, skipSpace_append hb ⟨'{', _, rfl, rfl⟩]
        exact Record.readMembers_of_parts h ht fold full r
      · simp only [Record.reader, List.cons_append, skipSpace_append hb ⟨'[', _, rfl, rfl⟩]
        exact Record.readPositions_of_positions (n := 0) h.fields h.distinct fresh ht ⟨names, fold, optional⟩ r
  starts := by
    rintro y _ ⟨members, _, ⟨⟨t, _, rfl⟩, _⟩ | ⟨⟨t, _, rfl⟩, _⟩⟩
    · exact ⟨'{', t, rfl, by simp⟩
    · exact ⟨'[', t, rfl, by simp⟩

end

end SearchRelay.Json
