import EntityMapping.Proofs.ReferenceDecision

/-! # The index divides the foreign keys

Every key whose target is in the schema is filed once, under the name of the entity that it leads
to, and the keys under one name keep the order that they have in the schema. Tables that get the
same name share the keys that lead to them. A name is in the index only if a key is filed under it.
-/
namespace EntityMapping

namespace Named
variable {α : Type}

theorem keys_set (name : Name) (value : α) (es : Named α) :
    (es.set name value).map (fun e => e.1.key) = es.map (fun e => e.1.key) ++
      if name.key ∈ es.map (fun e => e.1.key) then [] else [name.key] := by
  induction es with
  | nil => rfl
  | cons e es ih =>
    rw [set]
    split
    · rename_i h
      simp [← Document.same_iff.1 h]
    · rename_i h
      have hne : name.key ≠ e.1.key := fun hkey => h (Document.same_iff.2 hkey.symm)
      simp only [List.map_cons, List.cons_append, ih, List.mem_cons, hne, false_or]

theorem nodup_keys_set {name : Name} {es : Named α} (h : (es.map fun e => e.1.key).Nodup)
    (value : α) : ((es.set name value).map fun e => e.1.key).Nodup := by
  rw [keys_set]
  split
  · simpa using h
  · rename_i hnew
    exact List.nodup_append.2 ⟨h, List.nodup_singleton _, fun a ha b hb hab =>
      hnew (List.mem_singleton.1 hb ▸ hab ▸ ha)⟩

theorem forall_mem_set {P : α → Prop} {name : Name} {value : α} {es : Named α}
    (hvalue : P value) (h : ∀ e ∈ es, P e.2) : ∀ e ∈ es.set name value, P e.2 := by
  induction es with
  | nil => simpa [set] using hvalue
  | cons e es ih =>
    obtain ⟨he, hes⟩ := List.forall_mem_cons.1 h
    rw [set]
    split
    · exact List.forall_mem_cons.2 ⟨hvalue, hes⟩
    · exact List.forall_mem_cons.2 ⟨he, ih hes⟩

theorem exists_mem_of_get? {name : Name} {value : α} {es : Named α}
    (h : es.get? name = some value) : ∃ e ∈ es, e.2 = value := by
  obtain ⟨e, he, rfl⟩ := Option.map_eq_some_iff.1 h
  exact ⟨e, List.mem_of_find?_eq_some he, rfl⟩

/-- Of all lists together, one gets longer by a value. -/
theorem flatMap_set_perm (name : Name) (a : α) (es : Named (List α)) :
    ((es.set name ((es.get? name).getD [] ++ [a])).flatMap Prod.snd).Perm
      (es.flatMap Prod.snd ++ [a]) := by
  induction es with
  | nil => exact .refl _
  | cons e es ih =>
    rw [get?_cons, set]
    split
    · simp only [Option.getD_some, List.flatMap_cons, List.append_assoc]
      exact List.perm_append_comm.append_left e.2
    · simp only [List.flatMap_cons, List.append_assoc]
      exact ih.append_left e.2

end Named

namespace ReferenceIndex

variable {c : Convention} {s : Settings} {schema : Schema} {x y : ReferenceIndex}
  {fs gs : List ForeignKey} {f : ForeignKey}

/-- The index has each of the keys in one place, under names that differ, and no name without a
key. -/
structure Files (x : ReferenceIndex) (fs : List ForeignKey) : Prop where
  names_nodup : (x.entries.map fun e => e.1.key).Nodup
  inhabited : ∀ e ∈ x.entries, e.2 ≠ []
  keys_perm : (x.entries.flatMap Prod.snd).Perm fs

theorem files_empty : Files {} [] := ⟨.nil, nofun, .refl _⟩

theorem Files.add (h : x.Files fs) (n : Name) (f : ForeignKey) :
    (x.add n f).Files (fs ++ [f]) where
  names_nodup := Named.nodup_keys_set h.names_nodup _
  inhabited := Named.forall_mem_set (P := (· ≠ [])) (by simp) h.inhabited
  keys_perm := (Named.flatMap_set_perm n f x.entries).trans (h.keys_perm.append_right [f])

/-- Keys that are put into an index one after the other are filed beside those before them. -/
theorem Files.foldlM (hx : x.Files fs)
    (h : gs.foldlM (fun x f => do pure (x.add (← (← entityName c s f.target).asKey) f)) x =
      (.ok y : Answer ReferenceIndex)) : y.Files (fs ++ gs) := by
  induction gs generalizing x fs with
  | nil =>
    obtain rfl : x = y := Except.ok.inj h
    rwa [List.append_nil]
  | cons f gs ih =>
    rw [List.foldlM_cons] at h
    obtain ⟨x₁, hx₁, h⟩ := Answer.bind_eq_ok.1 h
    simp only [Answer.bind_eq_ok, Answer.pure_eq_ok] at hx₁
    obtain ⟨_, _, key, _, rfl⟩ := hx₁
    rw [List.append_cons]
    exact ih (hx.add key f) h

theorem files_ofSchema (h : ofSchema c s schema = .ok x) :
    x.Files (schema.foreignKeys.filter fun f => schema.hasTable f.target) :=
  files_empty.foldlM h

theorem Files.isSome_iff (h : x.Files fs) (n : Name) :
    (x.entries.get? n).isSome ↔ x.leadingTo n ≠ [] := by
  rw [leadingTo]
  cases hn : x.entries.get? n with
  | none => simp
  | some l =>
    obtain ⟨e, he, rfl⟩ := Named.exists_mem_of_get? hn
    simp [h.inhabited e he]

/-- The index divides the keys of the schema among the names of their targets. -/
structure Divides (x : ReferenceIndex) (c : Convention) (s : Settings) (schema : Schema) :
    Prop where
  leadingTo_eq : ∀ n, x.leadingTo n =
    schema.foreignKeys.filter fun f => schema.hasTable f.target && leadsTo c s n f
  files : x.Files (schema.foreignKeys.filter fun f => schema.hasTable f.target)
  held_once : ∀ f ∈ schema.foreignKeys, schema.hasTable f.target →
    ∃ n, entityName c s f.target = .ok n ∧ ∀ m, f ∈ x.leadingTo m ↔ n.same m
  orphans_out : ∀ f, schema.hasTable f.target = false → ∀ n, f ∉ x.leadingTo n
  listed_iff : ∀ n, (x.entries.get? n).isSome ↔ x.leadingTo n ≠ []

theorem leadingTo_eq_filter (h : ofSchema c s schema = .ok x) (n : Name) : x.leadingTo n =
    schema.foreignKeys.filter fun f => schema.hasTable f.target && leadsTo c s n f := by
  rw [leadingTo_ofSchema h, List.filter_filter]
  exact List.filter_congr fun f _ => Bool.and_comm _ _

/-- There is an index as soon as the tables that are referred to within the schema have entity names
that can be looked up, and it divides the keys. -/
theorem exists_divides (h : ∀ f ∈ schema.foreignKeys, schema.hasTable f.target →
      (entityName c s f.target).Gives fun n => n.isPlain) :
    ∃ x, ofSchema c s schema = .ok x ∧ x.Divides c s schema := by
  obtain ⟨x, hx⟩ := ofSchema_isOk_iff.2 h
  refine ⟨x, hx, ?_⟩
  constructor
  case leadingTo_eq => exact leadingTo_eq_filter hx
  case files => exact files_ofSchema hx
  case held_once =>
    intro f hf hin
    obtain ⟨n, hn, _⟩ := h f hf hin
    refine ⟨n, hn, fun m => ?_⟩
    rw [leadingTo_eq_filter hx, List.mem_filter, leadsTo_of_entityName hn, hin, Bool.true_and]
    exact and_iff_right hf
  case orphans_out =>
    intro f hout n hf
    rw [leadingTo_eq_filter hx, List.mem_filter, hout] at hf
    exact absurd hf.2 (by simp)
  case listed_iff => exact (files_ofSchema hx).isSome_iff

end ReferenceIndex

def Convention.merging : Convention := plainWith fun _ => .ok "place"

/-- Two tables that are referred to share their keys, in the order of the schema. The key that leads
outside is not among them. -/
theorem ReferenceIndex.exists_divides_frontier :
    (∀ f ∈ Schema.frontier.foreignKeys, Schema.frontier.hasTable f.target →
      (entityName .merging {} f.target).Gives fun n => n.isPlain) ∧
    ∃ x, ofSchema .merging {} .frontier = .ok x ∧ x.Divides .merging {} .frontier ∧
      (x.leadingTo "place").map (fun f => f.target.name) =
        ["countries", "countries", "countries", "regions", "regions"] := by
  have hnames : ∀ f ∈ Schema.frontier.foreignKeys, Schema.frontier.hasTable f.target →
      (entityName .merging {} f.target).Gives fun n => n.isPlain :=
    fun _ _ _ => ⟨"place", rfl, rfl⟩
  obtain ⟨x, hx, hdivides⟩ := exists_divides hnames
  refine ⟨hnames, x, hx, hdivides, ?_⟩
  rw [hdivides.leadingTo_eq]
  decide

end EntityMapping
