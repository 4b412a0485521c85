import Schemata.Annotation.Apply
import Schemata.Proofs.Annotation.Merging
import Schemata.Proofs.Schema.Nullability

/-!
# Vendor data keeps to itself

Vendor data is written last, over whatever stands there already, so that a vendor key that is a
keyword would take the place of the keyword.  It never is.  Vendor data enters by two records only:
one that is about nothing else, and a group of named constraints, where it has a name of its own.
Both put `x-` in front of keys that do not start with it (`vendorKeyed_of_merge`).

What remains of records when all that is erased is said by `Record.withoutVendor`.  Erasing goes
along with merging: records without vendor data amount to what the records amount to, without its
vendor data (`merge_withoutVendor`); in particular the one fails if and only if the other does.  And
writing constraints onto a node is writing them without vendor data, and then setting vendor keys.

So the entries of a node fall into two halves.  In front there are those under keywords, which are
the same for all records that differ by vendor data only, with everything that is inside them; and
vendor data follows (`entries_of_withoutVendor_eq`).
-/

namespace Schemata

open Rendered

/-- All keys are vendor keys. -/
def Rendered.VendorKeyed (r : Rendered) : Prop :=
  ∀ e ∈ r, e.1.plain.startsWith "x-" = true

/-- No key is a vendor key. -/
def Rendered.Standard (r : Rendered) : Prop :=
  ∀ e ∈ r, e.1.plain.startsWith "x-" = false

theorem vendorKeyed_setKeys {es m : Rendered} (hes : es.VendorKeyed) (hm : m.VendorKeyed) :
    VendorKeyed (setKeys es m) := fun e he =>
  (forall_setKeys (P := fun key : Wording => key.plain.startsWith "x-" = true) (Q := fun _ => True)
    (fun e he => ⟨hes e he, trivial⟩) (fun e he => ⟨hm e he, trivial⟩) e he).1

/-- A vendor key is one. -/
theorem startsWith_vendorKey (name : Wording) : (vendorKey name).plain.startsWith "x-" = true := by
  unfold vendorKey
  split
  next h => exact h
  next =>
    show String.startsWith ("x-" ++ (Value.ofWording name).display) "x-" = true
    rw [String.startsWith_string_iff, String.toList_append]
    exact List.prefix_append _ _

/-- Keys that are made into vendor keys. -/
theorem vendorKeyed_map {α : Type} {f : α → Wording} {g : α → Value} (xs : List α) :
    VendorKeyed (xs.map fun x => (vendorKey (f x), g x)) :=
  List.forall_mem_map.mpr fun _ _ => startsWith_vendorKey _

/-! ## Without vendor data -/

/-- A set of constraints without its vendor data. -/
def Constraints.withoutVendor (c : Constraints) : Constraints :=
  { c with extensions := [] }

/-- A record without the argument that has vendor data for its value. -/
def Record.standard (r : Record) : Record :=
  { r with named := r.named.filter fun e => e.1 != "extensions" }

/-- **A record without vendor data**; nothing remains of a record that is about nothing else. -/
def Record.withoutVendor (r : Record) : Option Record :=
  if Topic.ofName? r.name = some .extension then none else some r.standard

namespace Constraints

variable {c c' lower upper : Constraints} {key : String} {v : Value}

/-- A named constraint that is not vendor data. -/
theorem assign_withoutVendor (hkey : key ≠ "extensions") (c : Constraints) (v : Value) :
    (c.assign key v).map withoutVendor = c.withoutVendor.assign key v := by
  unfold assign
  split
  all_goals first
    | rfl
    | (cases v.asCount? <;> rfl)
    | exact absurd rfl hkey

/-- Vendor data among named constraints sets nothing else, and cannot fail. -/
theorem exists_assign_extensions (c : Constraints) (v : Value) :
    ∃ c', c.assign "extensions" v = .ok c' ∧ c'.withoutVendor = c.withoutVendor := by
  unfold assign
  cases v.entries? with
  | none => exact ⟨_, rfl, rfl⟩
  | some es => exact ⟨_, rfl, rfl⟩

theorem assignAll_withoutVendor (c : Constraints) (named : List (String × Value)) :
    (c.assignAll named).map withoutVendor =
      c.withoutVendor.assignAll (named.filter fun e => e.1 != "extensions") := by
  induction named generalizing c with
  | nil => rfl
  | cons e named ih =>
    obtain ⟨key, v⟩ := e
    by_cases hkey : key = "extensions"
    · subst hkey
      obtain ⟨c', h, hc'⟩ := exists_assign_extensions c v
      have hfilter : ((("extensions", v) :: named).filter fun e => e.1 != "extensions") =
          named.filter fun e => e.1 != "extensions" := rfl
      rw [assignAll, h, hfilter, ← hc']
      exact ih c'
    · have hfilter : (((key, v) :: named).filter fun e => e.1 != "extensions") =
          (key, v) :: named.filter fun e => e.1 != "extensions" := by simp [hkey]
      rw [hfilter, assignAll, assignAll, ← assign_withoutVendor hkey]
      cases c.assign key v with
      | error e => rfl
      | ok c' => exact ih c'

/-- Laying constraints over one another, without vendor data. -/
theorem fold_withoutVendor (lower upper : Constraints) :
    (lower.fold upper).map withoutVendor = lower.withoutVendor.fold upper.withoutVendor := by
  show _ = appendUnique lower.choices upper.choices >>= _
  unfold fold
  cases appendUnique lower.choices upper.choices <;> rfl

/-- A layer of vendor data has no other effect. -/
theorem fold_vendor (c : Constraints) (es : Rendered) :
    (c.fold { extensions := es }).map withoutVendor = .ok c.withoutVendor := by
  simp [fold, appendUnique, Except.map, withoutVendor, upperText, upperList, appendNames, bind,
    Except.bind, pure, Except.pure]

end Constraints

namespace Record

variable {r : Record} {key : String} {t : Topic} {c : Constraints}

/-- Arguments of other names are those that were there. -/
theorem getKey?_standard (r : Record) (hkey : key ≠ "extensions") :
    getKey? key r.standard.named = getKey? key r.named := by
  rw [standard, getKey?_filter (p := (· != "extensions")), if_pos (by simpa using hkey)]

theorem namedOr_standard (r : Record) (hkey : key ≠ "extensions") (i : Nat) :
    r.standard.namedOr key i = r.namedOr key i := by
  rw [namedOr, namedOr, getKey?_standard r hkey]
  rfl

/-- **What a record says that is not about vendor data.** -/
theorem layerOn_standard (r : Record) (ht : t ≠ .extension) :
    r.standard.layerOn t = (r.layerOn t).map Constraints.withoutVendor := by
  cases t with
  | group =>
    show Constraints.assignAll _ (r.named.filter _) = (Constraints.assignAll _ r.named).map _
    rw [Constraints.assignAll_withoutVendor]
    congr 1
    show (if r.args.isEmpty then _ else _) =
      Constraints.withoutVendor (if r.args.isEmpty then _ else _)
    split <;> rfl
  | required =>
    rw [layerOn, layerOn, getKey?_standard r (by decide)]
    rfl
  | range =>
    rw [layerOn, layerOn, namedOr_standard r (by decide), namedOr_standard r (by decide)]
    rfl
  | length | count =>
    rw [layerOn, layerOn, namedOr_standard r (by decide), namedOr_standard r (by decide)]
    cases (r.namedOr _ 0).asCount? with
    | error e => rfl
    | ok n => cases (r.namedOr _ 1).asCount? <;> rfl
  | pattern | sample | default | description | title =>
    rw [layerOn, layerOn, namedOr_standard r (by decide)]
    rfl
  | extension => exact absurd rfl ht
  | requiredProperty | catchAll | choices | notEmpty | deprecated => rfl

theorem layer?_standard (r : Record) (ht : Topic.ofName? r.name ≠ some .extension) :
    r.standard.layer? = r.layer?.map (Option.map Constraints.withoutVendor) := by
  have hname : r.standard.name = r.name := rfl
  rw [layer?, layer?, hname]
  cases htopic : Topic.ofName? r.name with
  | none => rfl
  | some t =>
    show (r.standard.layerOn t >>= _) = (r.layerOn t >>= _).map _
    rw [layerOn_standard r fun he : t = .extension => ht (he ▸ htopic)]
    cases r.layerOn t <;> rfl

/-- What a record says that is about vendor data. -/
theorem layer?_of_extension (ht : Topic.ofName? r.name = some .extension) :
    r.layer? = .ok (some { extensions := r.vendorData }) := by
  rw [layer?, ht]
  rfl

/-! ## Vendor keys -/

theorem vendorKeyed_vendorData (r : Record) : VendorKeyed r.vendorData := by
  unfold vendorData
  refine vendorKeyed_setKeys (vendorKeyed_map r.named) ?_
  split
  · split
    · exact List.forall_mem_nil _
    · exact List.forall_mem_singleton.mpr (startsWith_vendorKey _)
  · exact List.forall_mem_nil _

end Record

namespace Constraints

variable {c c' lower upper : Constraints} {key : String} {v : Value}

theorem vendorKeyed_assign (hc : VendorKeyed c.extensions) (h : c.assign key v = .ok c') :
    VendorKeyed c'.extensions := by
  unfold assign at h
  split at h
  all_goals first
    | (cases h; exact hc)
    | (obtain ⟨n, -, h⟩ := exists_of_bind_eq_ok h
       cases h
       exact hc)
    | skip
  split at h
  · cases h
    exact vendorKeyed_setKeys (vendorKeyed_map _) (List.forall_mem_nil _)
  · cases h
    exact hc

theorem vendorKeyed_assignAll {named : List (String × Value)} (hc : VendorKeyed c.extensions)
    (h : c.assignAll named = .ok c') : VendorKeyed c'.extensions := by
  induction named generalizing c with
  | nil =>
    cases h
    exact hc
  | cons e named ih =>
    obtain ⟨c₁, h₁, h⟩ := exists_of_bind_eq_ok h
    exact ih (vendorKeyed_assign hc h₁) h

theorem vendorKeyed_of_layerOn {r : Record} {t : Topic} (h : r.layerOn t = .ok c) :
    VendorKeyed c.extensions := by
  cases t with
  | group =>
    refine vendorKeyed_assignAll ?_ h
    split <;> exact List.forall_mem_nil _
  | length | count =>
    obtain ⟨n, -, h⟩ := exists_of_bind_eq_ok h
    obtain ⟨m, -, h⟩ := exists_of_bind_eq_ok h
    cases h
    exact List.forall_mem_nil _
  | extension =>
    cases h
    exact r.vendorKeyed_vendorData
  | _ =>
    cases h
    exact List.forall_mem_nil _

theorem vendorKeyed_of_layer? {r : Record} (h : r.layer? = .ok (some c)) :
    VendorKeyed c.extensions := by
  unfold Record.layer? at h
  split at h
  · obtain ⟨c', hc', h⟩ := exists_of_bind_eq_ok h
    cases h
    exact vendorKeyed_of_layerOn hc'
  · cases h

theorem vendorKeyed_of_fold (hlower : VendorKeyed lower.extensions)
    (hupper : VendorKeyed upper.extensions) (h : lower.fold upper = .ok c) :
    VendorKeyed c.extensions := by
  obtain ⟨choices, -, h⟩ := exists_of_bind_eq_ok h
  cases h
  exact vendorKeyed_setKeys hupper hlower

/-- **Vendor data is under vendor keys**, by whatever record it is given. -/
theorem vendorKeyed_of_merge {rs : List Record} (h : merge rs = .ok c) : VendorKeyed c.extensions :=
  mergeOnto_induction (P := fun c => VendorKeyed c.extensions) (c := {})
    (fun _ _ _ hlower hupper hfold => vendorKeyed_of_fold hlower hupper hfold)
    (fun _ _ _ hlayer => vendorKeyed_of_layer? hlayer) (List.forall_mem_nil _) h

/-! ## Merging without vendor data -/

theorem mergeOnto_withoutVendor (c : Constraints) (rs : List Record) :
    (c.mergeOnto rs).map withoutVendor =
      c.withoutVendor.mergeOnto (rs.filterMap Record.withoutVendor) := by
  induction rs generalizing c with
  | nil => rfl
  | cons r rs ih =>
    by_cases ht : Topic.ofName? r.name = some .extension
    · have hr : r.withoutVendor = none := if_pos ht
      rw [List.filterMap_cons_none hr, mergeOnto, Record.layer?_of_extension ht]
      show (c.fold { extensions := r.vendorData } >>= fun c => c.mergeOnto rs).map withoutVendor = _
      have hfold := fold_vendor c r.vendorData
      cases hc : c.fold { extensions := r.vendorData } with
      | error e =>
        rw [hc] at hfold
        cases hfold
      | ok c' =>
        rw [hc] at hfold
        rw [← Except.ok.inj hfold]
        exact ih c'
    · have hr : r.withoutVendor = some r.standard := if_neg ht
      rw [List.filterMap_cons_some hr, mergeOnto, mergeOnto, Record.layer?_standard r ht]
      cases r.layer? with
      | error e => rfl
      | ok layer? =>
        cases layer? with
        | none => exact ih c
        | some layer =>
          show (c.fold layer >>= fun c => c.mergeOnto rs).map _ =
            c.withoutVendor.fold layer.withoutVendor >>= fun c => c.mergeOnto _
          rw [← fold_withoutVendor]
          cases c.fold layer with
          | error e => rfl
          | ok c' => exact ih c'

/-- **Records without vendor data** amount to what the records amount to, without vendor data. -/
theorem merge_withoutVendor (rs : List Record) :
    (merge rs).map withoutVendor = merge (rs.filterMap Record.withoutVendor) :=
  mergeOnto_withoutVendor {} rs

end Constraints

/-! ## On a node -/

namespace Node

variable {n : Node} {refPrefix : String}

/-- The vendor data that a node carries itself is under vendor keys. -/
def VendorKeyed (n : Node) : Prop :=
  ∀ k, n.keywords? = some k → Rendered.VendorKeyed k.extensions

/-- Set vendor keys on a node. -/
def setVendor (es : Rendered) (n : Node) : Node :=
  n.mapKeywords fun k => { k with extensions := setKeys es k.extensions }

/-- **Writing constraints is writing them without vendor data, and then setting vendor keys.** -/
theorem apply_eq_setVendor (c : Constraints) (n : Node) :
    c.apply n = (c.withoutVendor.apply n).setVendor c.extensions := by
  cases n <;> rfl

/-- Constraints without vendor data leave that of a node as it is. -/
theorem vendorKeyed_apply (hn : n.VendorKeyed) (c : Constraints) :
    (c.withoutVendor.apply n).VendorKeyed := by
  intro k hk
  cases n with
  | leaf k' t | object k' ps a allowed | array k' items =>
    cases hk
    exact hn k' rfl
  | ref | composition | union => cases hk

/-- Titles and descriptions are no vendor data. -/
theorem standard_textEntries (title description : Option Wording) :
    Standard (textEntries title description) := by
  intro e he
  rcases List.mem_append.mp he with he | he
  · rw [key_of_mem_textEntry he]
    exact Keywords.startsWith_of_mem_lenient (by decide)
  · rw [key_of_mem_textEntry he]
    exact Keywords.startsWith_of_mem_lenient (by decide)

/-- The entries of a concrete node before vendor data. -/
theorem standard_finish (k : Keywords) {parts : Rendered}
    (hparts : ∀ e ∈ parts, ∃ key ∈ "type" :: Keywords.lenient, e.1 = (key : Wording)) :
    Standard (parts ++ k.ownEntries) := by
  intro e he
  obtain ⟨key, hkey, hk⟩ := k.standard_append_ownEntries hparts e he
  rw [hk]
  exact Keywords.startsWith_of_mem_lenient hkey

/-- The type and the parts of a node are keywords. -/
theorem typeEntry_partEntries (k : Keywords) (t : Option JsonType) (n : Node) (refPrefix : String) :
    ∀ e ∈ k.typeEntry t ++ n.partEntries refPrefix,
      ∃ key ∈ "type" :: Keywords.lenient, e.1 = (key : Wording) := by
  intro e he
  rcases List.mem_append.mp he with he | he
  · refine ⟨"type", List.mem_cons_self, ?_⟩
    unfold Keywords.typeEntry at he
    split at he
    · cases he
    · split at he <;> rw [List.mem_singleton.mp he]
  · obtain ⟨key, hkey, hk⟩ := lenient_partEntries n e he
    exact ⟨key, List.mem_cons_of_mem _ hkey, hk⟩

/-- A concrete node with vendor keys set on it. -/
theorem entries_setVendor_of_keywords {k : Keywords} {es : Rendered} (hk : n.keywords? = some k)
    (hkeys : Rendered.VendorKeyed (setKeys es k.extensions)) :
    (n.setVendor es).entries refPrefix =
      k.typeEntry n.type? ++ n.partEntries refPrefix ++ k.ownEntries ++
        setKeys (setKeys es k.extensions) [] := by
  have hset : (n.setVendor es).keywords? =
      some { k with extensions := setKeys es k.extensions } := by
    cases n <;> cases hk <;> rfl
  have htype : (n.setVendor es).type? = n.type? := by cases n <;> rfl
  have hparts : (n.setVendor es).partEntries refPrefix = n.partEntries refPrefix := by
    cases n <;> rfl
  have hfinish := Keywords.finish_of_vendorOnly
    (k := { k with extensions := setKeys es k.extensions }) hkeys
    (typeEntry_partEntries k n.type? n refPrefix)
  rw [entries_eq_finish hset, htype, hparts]
  exact hfinish

/-- **The entries of a node with vendor keys set on it**: those under keywords are the same whatever
is set, and vendor data follows. -/
theorem exists_entries_setVendor (hn : n.VendorKeyed) (refPrefix : String) :
    ∃ standard, Standard standard ∧ ∀ es, Rendered.VendorKeyed es →
      ∃ vendor, Rendered.VendorKeyed vendor ∧
        (n.setVendor es).entries refPrefix = standard ++ vendor := by
  cases hk : n.keywords? with
  | some k =>
    refine ⟨_, standard_finish k (typeEntry_partEntries k n.type? n refPrefix),
      fun es hes => ?_⟩
    have hkeys := vendorKeyed_setKeys hes (hn k hk)
    exact ⟨_, vendorKeyed_setKeys hkeys (List.forall_mem_nil _),
      entries_setVendor_of_keywords hk hkeys⟩
  | none =>
    -- a node that carries nothing but texts takes no vendor data
    have hset (es : Rendered) : n.setVendor es = n := by cases n <;> first | rfl | cases hk
    refine ⟨n.entries refPrefix, ?_, fun es _ =>
      ⟨[], List.forall_mem_nil _, by rw [hset, List.append_nil]⟩⟩
    cases n with
    | leaf | object | array => cases hk
    | ref =>
      exact List.forall_mem_cons.mpr
        ⟨(by decide +kernel : "$ref".startsWith "x-" = false), standard_textEntries _ _⟩
    | composition =>
      exact List.forall_mem_cons.mpr
        ⟨(by decide +kernel : "allOf".startsWith "x-" = false), standard_textEntries _ _⟩
    | union =>
      exact List.forall_mem_cons.mpr
        ⟨(by decide +kernel : "anyOf".startsWith "x-" = false), standard_textEntries _ _⟩

end Node

/-! ## Two lists of records -/

namespace Constraints

/-- Much is said of a text by a vendor, in every way there is: under names that are keywords, under
a name that is a vendor key already, and over again. -/
def labelledRecords : List Record :=
  [.property [("minLength", .int 1), ("extensions", .dict [(.text "minLength", .int 9)])],
   ⟨"Extension", [.text "type", .text "integer"], [("enum", .list [.null])]⟩,
   ⟨"Extension", [.text "x-type", .text "text"], []⟩]

/-- A node that carries vendor data itself. -/
def ownedText : Node :=
  .leaf { extensions := [("x-owner", .text "ann")] } (some .string)

end Constraints

end Schemata
