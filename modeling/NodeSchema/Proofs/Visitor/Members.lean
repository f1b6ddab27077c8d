import NodeSchema.Proofs.Visitor.Walks

namespace NodeSchema

open Code (Binding Operand Step Walks)
open Program (Environment bind? runAll runArms)
open Text (escapeKeyword snakeCase)

namespace Program

theorem runAll_append {call : String → Value → Option (List Call)} {env : Environment}
    {a b : List Statement} {calls more : List Call} (ha : runAll call env a = some calls)
    (hb : runAll call env b = some more) : runAll call env (a ++ b) = some (calls ++ more) := by
  induction a generalizing calls with
  | nil =>
    obtain rfl := Option.some.inj ha
    exact hb
  | cons s a ih =>
    simp only [runAll, Option.bind_eq_bind, Option.bind_eq_some_iff] at ha
    obtain ⟨first, hf, others, ho, he⟩ := ha
    obtain rfl := Option.some.inj he
    rw [List.cons_append, runAll, hf, Option.bind_eq_bind, Option.bind_some, ih ho,
      List.append_assoc]
    rfl

theorem forall₂_lookup_zip {labels : List String} (hn : labels.Nodup) {values : List Value}
    (hl : labels.length = values.length) {outer : Environment}
    (ho : ∀ label ∈ labels, outer.lookup label = none) :
    List.Forall₂ (fun label value => (outer ++ labels.zip values).lookup label = some value)
      labels values := by
  induction labels generalizing values outer with
  | nil =>
    obtain rfl := List.length_eq_zero_iff.1 hl.symm
    exact .nil
  | cons label labels ih =>
    obtain ⟨value, values, rfl⟩ := List.exists_cons_of_length_eq_add_one hl.symm
    rw [List.nodup_cons] at hn
    rw [List.forall_mem_cons] at ho
    have hrest : ∀ l ∈ labels, (outer ++ [(label, value)]).lookup l = none := by
      intro l hm
      have hne : (l == label) = false := beq_eq_false_iff_ne.2 fun he => hn.1 (he ▸ hm)
      rw [List.lookup_append, ho.2 l hm, Option.none_or, List.lookup_cons, hne]
      rfl
    have ht := ih hn.2 (Nat.succ.inj hl) hrest
    rw [List.append_assoc] at ht
    have hhead : (outer ++ (label :: labels).zip (value :: values)).lookup label = some value := by
      rw [List.zip_cons_cons, List.lookup_append, ho.1, Option.none_or, List.lookup_cons,
        beq_self_eq_true]
    exact .cons hhead ht

/-- What the pattern of an arm does with the slots from an index on. -/
def bindings (table : NameTable) (payload : List TypeExpr) (k : Nat) : List Binding :=
  (payload.zipIdx k).map fun (type, i) =>
    if table.containsNode type then Binding.slot i else .hole

theorem bindings_cons (table : NameTable) (type : TypeExpr) (payload : List TypeExpr) (k : Nat) :
    bindings table (type :: payload) k =
      (if table.containsNode type then Binding.slot k else .hole) ::
        bindings table payload (k + 1) := rfl

theorem exists_bind? (table : NameTable) {payload : List TypeExpr} {slots : List Value}
    (hl : payload.length = slots.length) (k : Nat) {outer : Environment}
    (ho : ∀ i, k ≤ i → outer.lookup ("f" ++ toString i) = none) (rest : Environment) :
    ∃ bound, bind? ((bindings table payload k).map (·.bound?)) slots = some bound ∧
      List.Forall₂ (fun p slot => table.containsNode p.1 →
        (outer ++ (bound ++ rest)).lookup ("f" ++ toString p.2) = some slot)
          (payload.zipIdx k) slots := by
  induction payload generalizing slots k outer with
  | nil =>
    obtain rfl := List.length_eq_zero_iff.1 hl.symm
    exact ⟨[], rfl, .nil⟩
  | cons type payload ih =>
    obtain ⟨slot, slots, rfl⟩ := List.exists_cons_of_length_eq_add_one hl.symm
    rw [List.zipIdx_cons, bindings_cons]
    cases hc : table.containsNode type with
    | true =>
      have hrest (i : Nat) (hi : k + 1 ≤ i) :
          (outer ++ [("f" ++ toString k, slot)]).lookup ("f" ++ toString i) = none := by
        have hne : ("f" ++ toString i == "f" ++ toString k) = false := by
          apply beq_eq_false_iff_ne.2
          intro he
          have := Text.index_injective he
          omega
        rw [List.lookup_append, ho i (by omega), Option.none_or, List.lookup_cons, hne]
        rfl
      obtain ⟨bound, hb, hf⟩ := ih (Nat.succ.inj hl) (k + 1) hrest
      rw [List.append_assoc] at hf
      have hbind : bind? ((Binding.slot k :: bindings table payload (k + 1)).map (·.bound?))
          (slot :: slots) = some (("f" ++ toString k, slot) :: bound) := by
        rw [List.map_cons, Binding.bound?, bind?, hb]
        rfl
      have hhead : (outer ++ (("f" ++ toString k, slot) :: bound ++ rest)).lookup
          ("f" ++ toString k) = some slot := by
        rw [List.lookup_append, ho k le_rfl, Option.none_or, List.cons_append, List.lookup_cons,
          beq_self_eq_true]
      exact ⟨_, hbind, .cons (fun _ => hhead) hf⟩
    | false =>
      obtain ⟨bound, hb, hf⟩ := ih (Nat.succ.inj hl) (k + 1) fun i hi => ho i (by omega)
      have hbind : bind? ((Binding.hole :: bindings table payload (k + 1)).map (·.bound?))
          (slot :: slots) = some bound := by
        rw [List.map_cons, Binding.bound?, bind?, hb]
      exact ⟨bound, hbind, .cons (fun h => absurd (hc.symm.trans h) Bool.false_ne_true) hf⟩

section Faithful

variable {schema : Schema} {table : NameTable} {call : String → Value → Option (List Call)}
  {depth : Nat}

/-- The steps for members make the calls for the nodes in them, member by member. -/
theorem Faithful.run_members (hf : Faithful schema table call depth) {α : Type} {as : List α}
    {operand : α → Operand} {type : α → TypeExpr} {steps : List (Option Step)} {env : Environment}
    {values : List Value}
    (hs : List.Forall₂ (fun a step => Walks table (operand a) (type a) step) as steps)
    (he : List.Forall₂ (fun a value => table.containsNode (type a) →
      (operand a).expression.eval env = some value) as values)
    (hv : List.Forall₂ (fun a value => schema.HasType (type a) value) as values)
    (hd : (values.flatMap Value.nodes).length ≤ depth) :
    runAll call env ((steps.filterMap id).map (·.statement)) =
      some (values.flatMap Value.calls) := by
  induction hs generalizing values with
  | nil =>
    cases hv
    rfl
  | @cons a step as steps hstep _ ih =>
    cases he with
    | cons he hes =>
    cases hv with
    | cons hv hvs =>
    rw [List.flatMap_cons, List.length_append] at hd
    have hsteps : (step :: steps).filterMap id = step.toList ++ steps.filterMap id := by
      cases step with
      | none => rfl
      | some step => rfl
    rw [hsteps, List.map_append, List.flatMap_cons]
    exact runAll_append (hstep.run hf he hv (by omega)) (ih hes hvs (by omega))

theorem eval_field {name label : String} {labels : List String} {values : List Value} :
    (Expression.field "node" label).eval [("node", .record name labels values)] =
      (labels.zip values).lookup label := rfl

theorem Faithful.run_record (hf : Faithful schema table call depth) {name : String} (span : String)
    {fields : List Field} {steps : List Step} {values : List Value}
    (hs : Code.fieldSteps? table fields = .ok steps)
    (hm : (Declaration.record name fields).MembersApart)
    (hv : List.Forall₂ schema.HasType (fields.map (·.type)) values)
    (hd : (values.flatMap Value.nodes).length ≤ depth) :
    (Code.Walker.record name steps).routine.run call
        (.record name ("span" :: fields.map (·.written)) (.leaf span :: values)) =
      some (values.flatMap Value.calls) := by
  obtain ⟨found, rfl, hwalks⟩ := Code.walks_of_fieldSteps? hs
  have hlen := hv.length_eq
  rw [List.length_map] at hlen
  have hspan : ∀ label ∈ fields.map (·.written),
      ([("span", .leaf span)] : Environment).lookup label = none := by
    intro label hl
    obtain ⟨f, hfield, rfl⟩ := List.mem_map.1 hl
    rw [List.lookup_cons, beq_eq_false_iff_ne.2 (hm.2 f hfield)]
    rfl
  have hfields := forall₂_lookup_zip hm.1 (by rwa [List.length_map]) hspan
  rw [List.forall₂_map_left_iff] at hfields hv
  have he : List.Forall₂ (fun f value => table.containsNode f.type →
      (Operand.field f.written).expression.eval [("node", .record name
        ("span" :: fields.map (·.written)) (.leaf span :: values))] = some value) fields values :=
    hfields.imp fun _ _ h _ => eval_field.trans h
  have hrun := hf.run_members hwalks he hv hd
  rw [Code.Walker.routine, Routine.run]
  split
  next hempty =>
    rw [List.isEmpty_iff.1 hempty] at hrun
    exact hrun
  next =>
    simp only [hrun]
    rfl

theorem arm_of_ofVariant? {variant : Variant} {arm : Code.Arm}
    (h : Code.Arm.ofVariant? table variant = .ok arm) :
    ((∀ type ∈ variant.payload, table.containsNode type = false) ∧ arm = .leaf variant.name) ∨
      ∃ steps, Code.slotSteps? table variant.payload = .ok steps ∧
        arm = .walk variant.name (bindings table variant.payload 0) steps := by
  rw [Code.Arm.ofVariant?] at h
  split at h
  · obtain ⟨steps, hs, h⟩ := bind_eq_ok_iff.1 h
    exact .inr ⟨steps, hs, (Except.ok.inj h).symm⟩
  next hany =>
    have hnone : ∀ type ∈ variant.payload, table.containsNode type = false := by
      intro type ht
      rw [List.any_eq_true] at hany
      exact Bool.eq_false_iff.2 fun hc => hany ⟨type, ht, hc⟩
    exact .inl ⟨hnone, (Except.ok.inj h).symm⟩

theorem Faithful.run_slots (hf : Faithful schema table call depth) {payload : List TypeExpr}
    {steps : List Step} {slots : List Value} {env : Environment}
    (hs : Code.slotSteps? table payload = .ok steps)
    (hv : List.Forall₂ schema.HasType payload slots)
    (hd : (slots.flatMap Value.nodes).length ≤ depth) :
    ∃ bound, bind? ((bindings table payload 0).map (·.bound?)) slots = some bound ∧
      runAll call (bound ++ env) (steps.map (·.statement)) = some (slots.flatMap Value.calls) := by
  obtain ⟨found, rfl, hwalks⟩ := Code.walks_of_slotSteps? hs
  have hnone : ∀ i, 0 ≤ i → ([] : Environment).lookup ("f" ++ toString i) = none := fun _ _ => rfl
  obtain ⟨bound, hb, he⟩ := exists_bind? table hv.length_eq 0 hnone env
  rw [← List.zipIdx_map_fst 0 payload, List.forall₂_map_left_iff] at hv
  exact ⟨bound, hb, hf.run_members hwalks he hv hd⟩

theorem Faithful.calls_eq_nil (hf : Faithful schema table call depth) {payload : List TypeExpr}
    {slots : List Value} (hc : ∀ type ∈ payload, table.containsNode type = false)
    (hv : List.Forall₂ schema.HasType payload slots) : slots.flatMap Value.calls = [] := by
  induction hv with
  | nil => rfl
  | cons h _ ih =>
    rw [List.forall_mem_cons] at hc
    rw [List.flatMap_cons, Value.calls_eq_nil (h.nodes_eq_nil hf.isNode hc.1), ih hc.2]
    rfl

/-- The pattern of an arm skips the span. -/
theorem Faithful.run_arm (hf : Faithful schema table call depth) {union span : String}
    {variant : Variant} {arm : Code.Arm} {slots : List Value} {env : Environment}
    (ha : Code.Arm.ofVariant? table variant = .ok arm)
    (hv : List.Forall₂ schema.HasType variant.payload slots)
    (hd : (slots.flatMap Value.nodes).length ≤ depth) :
    runArms call env union variant.name (.leaf span :: slots) [arm.toProgram union] =
      some (slots.flatMap Value.calls) := by
  rcases arm_of_ofVariant? ha with ⟨hc, rfl⟩ | ⟨steps, hs, rfl⟩
  · rw [runArms, if_pos ⟨rfl, rfl⟩, hf.calls_eq_nil hc hv]
    rfl
  · obtain ⟨bound, hb, hrun⟩ := hf.run_slots hs hv hd
    rw [runArms, if_pos ⟨rfl, rfl⟩]
    simp only [Code.Arm.toProgram, bind?, hb, Option.bind_eq_bind, Option.bind_some]
    exact hrun

theorem runArms_of_mem {variants : List Variant} {variant : Variant} {arms : List Code.Arm}
    (ha : List.Forall₂ (fun v arm => Code.Arm.ofVariant? table v = .ok arm) variants arms)
    (hn : (variants.map (·.name)).Nodup) (hm : variant ∈ variants) :
    ∃ arm, Code.Arm.ofVariant? table variant = .ok arm ∧ ∀ call env union slots,
      runArms call env union variant.name slots (arms.map (·.toProgram union)) =
        runArms call env union variant.name slots [arm.toProgram union] := by
  have hname {v : Variant} {arm : Code.Arm} (h : Code.Arm.ofVariant? table v = .ok arm)
      (union : String) :
      (arm.toProgram union).union = union ∧ (arm.toProgram union).variant = v.name := by
    rcases arm_of_ofVariant? h with ⟨-, rfl⟩ | ⟨steps, -, rfl⟩
    · exact ⟨rfl, rfl⟩
    · exact ⟨rfl, rfl⟩
  induction ha with
  | nil => cases hm
  | @cons v arm vs arms h _ ih =>
    rw [List.map_cons, List.nodup_cons] at hn
    rcases List.mem_cons.1 hm with rfl | hm
    · use arm, h
      intro call env union slots
      rw [List.map_cons, runArms, runArms, if_pos (hname h union), if_pos (hname h union)]
    · obtain ⟨arm', h', he⟩ := ih hn.2 hm
      use arm', h'
      intro call env union slots
      have hother : ¬((arm.toProgram union).union = union ∧
          (arm.toProgram union).variant = variant.name) := by
        intro hsame
        rw [(hname h union).2] at hsame
        exact hn.1 (List.mem_map.2 ⟨variant, hm, hsame.2.symm⟩)
      rw [List.map_cons, runArms, if_neg hother, he]

theorem Faithful.run_union (hf : Faithful schema table call depth) (name span : String)
    {variants : List Variant} {variant : Variant} {arms : List Code.Arm} {slots : List Value}
    (ha : variants.mapM (Code.Arm.ofVariant? table) = .ok arms)
    (hn : (variants.map (·.name)).Nodup) (hm : variant ∈ variants)
    (hv : List.Forall₂ schema.HasType variant.payload slots)
    (hd : (slots.flatMap Value.nodes).length ≤ depth) :
    (Code.Walker.union name arms).routine.run call
        (.union name variant.name (.leaf span :: slots)) =
      some (slots.flatMap Value.calls) := by
  have hbody (env : Environment) :
      runAll call env (if arms.all (·.isLeaf) then [.discard] else []) = some [] := by
    split
    · rfl
    · rfl
  obtain ⟨arm, h, hrun⟩ :=
    runArms_of_mem ((mapM_eq_ok_iff (fun _ _ _ => Iff.rfl) arms).1 ha) hn hm
  rw [Code.Walker.routine, Routine.run]
  simp only [hbody, hrun, hf.run_arm h hv hd, Option.bind_eq_bind, Option.bind_some]
  rfl

end Faithful

end Program

end NodeSchema
