import LadderMachine.Proofs.Container.Acceptance
import LadderMachine.Proofs.LookUps

/-!
# The tables of an image

Of everything that the statements say, the tables keep the mappings: `entered` lists these, each with
the bank of its name. Names and pins are looked up separately, and in both tables the last mapping
that matches is found (`get?_symbols`, `get?_pins`). Every entry of a table goes back to a line that
maps its name.
-/

namespace LadderMachine.Container

/-- The mappings among the statements, each with the bank of its name. -/
def entered : Bank → List Statement → List (Bank × Mapping)
  | _, [] => []
  | selected, .mapping m :: rest => (m.bank selected, m) :: entered selected rest
  | selected, st :: rest => entered (st.bankAfter selected) rest

def enterName (t : Symbols) (e : Bank × Mapping) : Symbols := t.insert e.1 e.2.label e.2.address

/-- Enters the pin of a mapping, if its name is one of a pin. -/
def enterPin (p : PinMap) (e : Bank × Mapping) : PinMap :=
  match e.2.pin? with
  | some pin => p.insert pin e.2.address
  | none => p

section LastWins

variable {σ α β : Type} (look : σ → Option β) (f : σ → α → σ) (p : α → Bool) (v : α → β)
  (inv : σ → Prop)

/-- Where every matching entry replaces what is looked up, the last one is found. -/
theorem look_foldl (hinv : ∀ s a, inv s → inv (f s a))
    (hlook : ∀ s a, inv s → look (f s a) = if p a then some (v a) else look s) (l : List α) (s : σ)
    (hs : inv s) : look (l.foldl f s) = ((l.filter p).getLast?.map v).or (look s) := by
  induction l generalizing s with
  | nil => rfl
  | cons a rest ih =>
    rw [List.foldl_cons, ih (f s a) (hinv s a hs), hlook s a hs]
    by_cases hp : p a = true
    · rw [if_pos hp, List.filter_cons_of_pos hp, List.getLast?_cons]
      cases (rest.filter p).getLast? <;> rfl
    · rw [if_neg hp, List.filter_cons_of_neg hp]

end LastWins

variable {bank selected : Bank} {sts : List Statement} {s : Metadata}

theorem symbols_foldl_take : (sts.foldl Metadata.take s).symbols =
    (entered s.bank sts).foldl enterName s.symbols := by
  induction sts generalizing s with
  | nil => rfl
  | cons st rest ih =>
    rw [List.foldl_cons, ih]
    cases st <;> rfl

theorem pins_foldl_take : (sts.foldl Metadata.take s).pins =
    (entered s.bank sts).foldl enterPin s.pins := by
  induction sts generalizing s with
  | nil => rfl
  | cons st rest ih =>
    rw [List.foldl_cons, ih]
    cases st <;> rfl

theorem get?_foldl_enterName (es : List (Bank × Mapping)) (t : Symbols) (bank : Bank)
    (name : String) : (es.foldl enterName t).get? bank name =
      ((es.filter fun e => e.1 = bank ∧ e.2.label = name).getLast?.map (·.2.address)).or
        (t.get? bank name) := by
  refine look_foldl (fun t => t.get? bank name) enterName _ (fun e => e.2.address)
    (fun _ => True) ?_ ?_ es t trivial
  · intro _ _ _
    trivial
  · intro t e _
    rw [enterName, Symbols.get?_insert]
    simp

theorem capacity_enterPin (p : PinMap) (e : Bank × Mapping) (kind : PinKind) :
    (enterPin p e).capacity kind = p.capacity kind := by
  unfold enterPin
  split
  · exact PinMap.capacity_insert p _ _ kind
  · rfl

theorem capacity_foldl_enterPin (es : List (Bank × Mapping)) (p : PinMap) (kind : PinKind) :
    (es.foldl enterPin p).capacity kind = p.capacity kind := by
  induction es generalizing p with
  | nil => rfl
  | cons e rest ih => rw [List.foldl_cons, ih, capacity_enterPin]

theorem get?_enterPin {p : PinMap} {e : Bank × Mapping} {kind : PinKind} {index : Nat}
    (h : index < p.capacity kind) : (enterPin p e).get? kind index =
      if e.2.pin? = some ⟨kind, index⟩ then some e.2.address else p.get? kind index := by
  unfold enterPin
  cases e.2.pin? with
  | none => simp
  | some pin =>
    rw [PinMap.get?_insert]
    simp [h]

theorem get?_foldl_enterPin (es : List (Bank × Mapping)) {p : PinMap} {kind : PinKind} {index : Nat}
    (h : index < p.capacity kind) : (es.foldl enterPin p).get? kind index =
      ((es.filter fun e => e.2.pin? = some ⟨kind, index⟩).getLast?.map (·.2.address)).or
        (p.get? kind index) := by
  refine look_foldl (fun p => p.get? kind index) enterPin _ (fun e => e.2.address)
    (fun p => index < p.capacity kind) ?_ ?_ es p h
  · intro p e hp
    rwa [capacity_enterPin]
  · intro p e hp
    rw [get?_enterPin hp]
    simp

namespace Metadata

theorem get?_symbols_enter (s : Metadata) (m : Mapping) (bank : Bank) (name : String) :
    (s.enter m).symbols.get? bank name =
      if m.bank s.bank = bank ∧ m.label = name then some m.address else s.symbols.get? bank name :=
  Symbols.get?_insert s.symbols _ _ _ _ _

theorem capacity_pins_enter (s : Metadata) (m : Mapping) (kind : PinKind) :
    (s.enter m).pins.capacity kind = s.pins.capacity kind :=
  capacity_enterPin s.pins (m.bank s.bank, m) kind

theorem get?_pins_enter {m : Mapping} {kind : PinKind} {index : Nat}
    (h : index < s.pins.capacity kind) :
    (s.enter m).pins.get? kind index =
      if m.pin? = some ⟨kind, index⟩ then some m.address else s.pins.get? kind index :=
  get?_enterPin (e := (m.bank s.bank, m)) h

end Metadata

namespace Contents

variable {config : Config} {c : Contents} {name : String} {address : Nat} {kind : PinKind}
  {index : Nat}

theorem symbols_image :
    (c.image config).symbols = (entered c.bank c.statements).foldl enterName {} :=
  symbols_foldl_take

theorem pins_image : (c.image config).pins =
    (entered c.bank c.statements).foldl enterPin (.ofCounts config.pins) :=
  pins_foldl_take

/-- The symbols hold the last mapping of each name. -/
theorem get?_symbols : (c.image config).symbols.get? bank name =
    ((entered c.bank c.statements).filter fun e => e.1 = bank ∧ e.2.label = name).getLast?.map
      (·.2.address) := by
  have hempty : ({} : Symbols).get? bank name = none := by cases bank <;> rfl
  rw [symbols_image, get?_foldl_enterName, hempty, Option.or_none]

theorem capacity_pins :
    (c.image config).pins.capacity kind = (PinMap.ofCounts config.pins).capacity kind := by
  rw [pins_image, capacity_foldl_enterPin]

theorem get?_ofCounts (counts : PinCounts) (kind : PinKind) (index : Nat) :
    (PinMap.ofCounts counts).get? kind index = none := by
  cases kind <;>
    simp only [PinMap.get?, PinMap.table, PinMap.ofCounts, Array.getElem?_replicate] <;>
    split <;> rfl

/-- The pin tables hold the last mapping of each pin that has a place in them. -/
theorem get?_pins (h : index < (PinMap.ofCounts config.pins).capacity kind) :
    (c.image config).pins.get? kind index =
      ((entered c.bank c.statements).filter fun e => e.2.pin? = some ⟨kind, index⟩).getLast?.map
        (·.2.address) := by
  rw [pins_image, get?_foldl_enterPin _ h, get?_ofCounts, Option.or_none]

/-- A symbol goes back to a mapping of its name. -/
theorem exists_entered (h : (name, address) ∈ (c.image config).symbols.entries bank) :
    ∃ m, (bank, m) ∈ entered c.bank c.statements ∧ m.label = name ∧ m.address = address := by
  rw [Symbols.mem_entries_iff, get?_symbols, Option.map_eq_some_iff] at h
  obtain ⟨⟨b, m⟩, hlast, haddress⟩ := h
  obtain ⟨hm, hp⟩ := List.mem_filter.1 (List.mem_of_getLast? hlast)
  obtain ⟨rfl, hlabel⟩ := of_decide_eq_true hp
  exact ⟨m, hm, hlabel, haddress⟩

end Contents

/-- A mapping is said by a line, and its address is a cell of its bank. -/
theorem exists_line_of_mem_entered {g : Geometry} {ls : List (List Char)} {e : Bank × Mapping}
    (hs : List.Forall₂ Says ls sts) (ha : Admitted g selected sts)
    (he : e ∈ entered selected sts) :
    (∃ line ∈ ls, Form line .data ∧ Maps line e.2) ∧ (∃ b, e.1 = e.2.bank b) ∧
      e.2.address < g.capacity e.1 := by
  induction hs generalizing selected with
  | nil => exact absurd he (by simp [entered])
  | @cons line st ls sts hsays _ ih =>
    have hrest : e ∈ entered (st.bankAfter selected) sts → (∃ l ∈ line :: ls, Form l .data ∧
        Maps l e.2) ∧ (∃ b, e.1 = e.2.bank b) ∧ e.2.address < g.capacity e.1 := by
      intro he
      obtain ⟨⟨l, hl, hform, hmaps⟩, hbank, hlt⟩ := ih ha.2 he
      exact ⟨⟨l, List.mem_cons_of_mem _ hl, hform, hmaps⟩, hbank, hlt⟩
    cases hsays with
    | blank _ => exact hrest he
    | sentinel _ => exact hrest he
    | heading _ => exact hrest he
    | cycle _ _ => exact hrest he
    | mapping hform hmaps =>
      rcases List.mem_cons.1 he with rfl | he
      · exact ⟨⟨line, by simp, hform, hmaps⟩, ⟨selected, rfl⟩, Statement.fits_mapping_iff.1 ha.1⟩
      · exact hrest he

end LadderMachine.Container
