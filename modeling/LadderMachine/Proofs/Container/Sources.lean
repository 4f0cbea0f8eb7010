import LadderMachine.Proofs.Container.Tables

/-!
# What a loaded image refers to

An image `Fits` a geometry if its program is well-formed for it and all addresses in its tables are
cells. Whatever an image is read from, a text, bytes or a file, it has been read from lines, and so it
fits the geometry it has been read for.
-/

namespace LadderMachine

/-- The program is well-formed, and names and pins stand for cells of their banks. -/
structure Image.Fits (g : Geometry) (image : Image) : Prop where
  program : WellFormed g image.program.instructions.toList
  symbols {bank : Bank} {name : String} {address : Nat}
    (h : image.symbols.get? bank name = some address) : address < g.capacity bank
  pins {kind : PinKind} {index address : Nat} (h : image.pins.get? kind index = some address) :
    address < g.capacity kind.bank

theorem Image.Fits.acceptedWithin {g : Geometry} {image : Image} (h : image.Fits g) :
    image.program.AcceptedWithin g.capacity :=
  ⟨g, _, Program.validate_eq_ok_iff.2 ⟨rfl, h.program⟩, fun _ => Nat.le_refl _⟩

theorem PinMap.lt_capacity_of_get? {m : PinMap} {kind : PinKind} {index address : Nat}
    (h : m.get? kind index = some address) : index < m.capacity kind := by
  by_contra hle
  rw [get?, Array.getElem?_eq_none (Nat.not_lt.1 hle)] at h
  cases h

namespace Container

variable {config : Config} {c : Contents} {ls : List (List Char)} {image : Image}

/-- A mapping that has been entered has the address of a cell in the bank of its name. -/
theorem address_lt_of_entered (ht : Tells ls c) (hs : c.Sound config) {e : Bank × Mapping}
    (he : e ∈ entered c.bank c.statements) :
    (∃ b, e.1 = e.2.bank b) ∧ e.2.address < config.geometry.capacity e.1 := by
  obtain ⟨_, _, _, -, -, -, hsays⟩ := ht
  exact (exists_line_of_mem_entered hsays hs.admitted he).2

theorem Contents.fits_image (ht : Tells ls c) (hs : c.Sound config) :
    (c.image config).Fits config.geometry where
  program := hs.wellFormed
  symbols h := by
    obtain ⟨m, hm, -, rfl⟩ := exists_entered (Symbols.mem_entries_iff.2 h)
    exact (address_lt_of_entered ht hs hm).2
  pins := by
    intro kind index address h
    have hindex := PinMap.lt_capacity_of_get? h
    rw [capacity_pins] at hindex
    rw [get?_pins hindex, Option.map_eq_some_iff] at h
    obtain ⟨⟨bank, m⟩, hlast, rfl⟩ := h
    obtain ⟨hm, hpin⟩ := List.mem_filter.1 (List.mem_of_getLast? hlast)
    obtain ⟨⟨selected, hbank⟩, hlt⟩ := address_lt_of_entered ht hs hm
    -- The name is one of a pin, so its bank is the bank of the pin.
    rw [hbank, Mapping.bank_of_pin (of_decide_eq_true hpin)] at hlt
    exact hlt

theorem fits_of_readLines (h : (readLines config ls).value = .ok image) :
    image.Fits config.geometry := by
  obtain ⟨c, ht, hs, rfl⟩ := readLines_eq_ok_iff.1 h
  exact Contents.fits_image ht hs

/-- What a container is read from. -/
inductive Source
  | text (text : String)
  | bytes (bytes : ByteArray)
  | file (path : String) (contents : Except ReadFault ByteArray)

namespace Source

variable {source : Source}

def read (config : Config) : Source → Logged (Except LoadError Image)
  | .text t => Container.read t config
  | .bytes b => Container.readBytes b config
  | .file path contents => Container.readContents path contents config

theorem exists_readLines_of_readBytes {b : ByteArray}
    (h : (Container.readBytes b config).value = .ok image) :
    ∃ ls, (readLines config ls).value = .ok image := by
  unfold Container.readBytes at h
  split at h
  · cases h
  · exact ⟨_, h⟩

/-- Images are read from lines only. -/
theorem exists_readLines (h : (source.read config).value = .ok image) :
    ∃ ls, (readLines config ls).value = .ok image := by
  cases source with
  | text t => exact ⟨_, h⟩
  | bytes b => exact exists_readLines_of_readBytes h
  | file path contents =>
    cases contents with
    | error fault => cases h
    | ok b => exact exists_readLines_of_readBytes h

theorem fits (h : (source.read config).value = .ok image) : image.Fits config.geometry := by
  obtain ⟨ls, hls⟩ := exists_readLines h
  exact fits_of_readLines hls

end Source

end Container

end LadderMachine
