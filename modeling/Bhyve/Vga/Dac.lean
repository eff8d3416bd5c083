import Bhyve.Lib.Fallible
import Bhyve.Lib.StepRuns

/-!
The palette of the display, which the guest reads and writes by three ports. Beside it stand the
places that the guest reads and writes next and the triples that it has written.
-/
namespace VgaDac
open Fallible StepRuns Function BitVec

inductive Fault where
  | outside

structure Dac where
  rdIndex : BitVec 8
  rdSubindex : BitVec 8
  wrIndex : BitVec 8
  wrSubindex : BitVec 8
  palette : Nat → BitVec 8
  paletteRgb : BitVec 8 → BitVec 32

inductive Port where
  | mask
  | idxRd
  | idxWr
  | data

def paletteSize : Nat := 3 * 256

def Dac.load (s : Dac) (place : Nat) : Except Fault (BitVec 8) :=
  if place < paletteSize then .ok (s.palette place) else .error .outside

def Dac.store (s : Dac) (place : Nat) (val : BitVec 8) : Except Fault Dac :=
  if place < paletteSize then .ok { s with palette := update s.palette place val }
  else .error .outside

def expand (val : BitVec 8) : BitVec 32 :=
  val.setWidth 32 <<< 2 ||| (val.setWidth 32 &&& 0x1) <<< 1 ||| val.setWidth 32 &&& 0x1

def rgbOf (r g b : BitVec 8) : BitVec 32 := expand r <<< 16 ||| expand g <<< 8 ||| expand b

def vgaPortIn (s : Dac) : Except Fault (BitVec 8 × Dac) := do
  let val ← s.load (3 * s.rdIndex.toNat + s.rdSubindex.toNat)
  let subindex := s.rdSubindex + 1
  .ok (val, if subindex = 3 then { s with rdIndex := s.rdIndex + 1, rdSubindex := 0 }
            else { s with rdSubindex := subindex })

def tripleDone (s : Dac) : Except Fault Dac := do
  let r ← s.load (3 * s.wrIndex.toNat + 0)
  let g ← s.load (3 * s.wrIndex.toNat + 1)
  let b ← s.load (3 * s.wrIndex.toNat + 2)
  .ok { s with
    paletteRgb := update s.paletteRgb s.wrIndex (rgbOf r g b)
    wrIndex := s.wrIndex + 1
    wrSubindex := 0 }

def vgaPortOut (s : Dac) (port : Port) (val : BitVec 8) : Except Fault Dac :=
  match port with
  | .mask => .ok s
  | .idxRd => .ok { s with rdIndex := val, rdSubindex := 0 }
  | .idxWr => .ok { s with wrIndex := val, wrSubindex := 0 }
  | .data => do
      let s ← s.store (3 * s.wrIndex.toNat + s.wrSubindex.toNat) val
      let s := { s with wrSubindex := s.wrSubindex + 1 }
      if s.wrSubindex = 3 then tripleDone s else .ok s

def vgaInit (words : BitVec 8 → BitVec 32) : Dac := ⟨0, 0, 0, 0, fun _ => 0, words⟩

theorem bit_expand (val : BitVec 8) (i : Nat) : (expand val).getLsbD i =
      if i < 2 then val.getLsbD 0 else decide (i < 32) && val.getLsbD (i - 2) := by
  have one : ∀ k, (0x1 : BitVec 32).getLsbD k = decide (k = 0) := by
    intro k
    simp [getLsbD_one]
  unfold expand
  simp only [getLsbD_or, getLsbD_and, getLsbD_shiftLeft, getLsbD_setWidth,
    one]
  rcases i with - | - | i
  · simp
  · simp
  · have later : ¬i + 1 + 1 < 2 := by omega
    by_cases inside : i + 1 + 1 < 32
    · have first : i < 32 := by omega
      simp [later, inside, first]
    · simp [later, inside]

theorem byte_places {i : Nat} (inside : i < 8) :
    i = 0 ∨ i = 1 ∨ i = 2 ∨ i = 3 ∨ i = 4 ∨ i = 5 ∨ i = 6 ∨ i = 7 := by omega

theorem red_field (r g b : BitVec 8) :
    (rgbOf r g b).extractLsb' 16 8 = (expand r).setWidth 8 ||| g >>> 6 := by
  apply eq_of_getLsbD_eq
  intro i inside
  unfold rgbOf
  simp only [getLsbD_extractLsb', getLsbD_or, getLsbD_shiftLeft,
    getLsbD_setWidth, getLsbD_ushiftRight, bit_expand]
  rcases byte_places inside with rfl | rfl | rfl | rfl | rfl | rfl | rfl | rfl <;> simp

theorem green_field (r g b : BitVec 8) :
    (rgbOf r g b).extractLsb' 8 8 = (expand g).setWidth 8 ||| b >>> 6 := by
  apply eq_of_getLsbD_eq
  intro i inside
  unfold rgbOf
  simp only [getLsbD_extractLsb', getLsbD_or, getLsbD_shiftLeft,
    getLsbD_setWidth, getLsbD_ushiftRight, bit_expand]
  rcases byte_places inside with rfl | rfl | rfl | rfl | rfl | rfl | rfl | rfl <;> simp

theorem blue_field (r g b : BitVec 8) : (rgbOf r g b).extractLsb' 0 8 = (expand b).setWidth 8 := by
  apply eq_of_getLsbD_eq
  intro i inside
  unfold rgbOf
  simp only [getLsbD_extractLsb', getLsbD_or, getLsbD_shiftLeft,
    getLsbD_setWidth, bit_expand]
  rcases byte_places inside with rfl | rfl | rfl | rfl | rfl | rfl | rfl | rfl <;> simp

/-- What a component carries into the channel above is not seen there where the low bits of that
    channel are set, as they are for an odd component. -/
def Clear (above below : BitVec 8) : Prop := above.getLsbD 0 = true ∨ below.toNat < 64

theorem high_bits_zero (below : BitVec 8) : below >>> 6 = 0 ↔ below.toNat < 64 := by
  rw [← toNat_inj, toNat_ushiftRight, Nat.shiftRight_eq_div_pow]
  constructor
  · intro zero
    have quotient : below.toNat / 64 = 0 := zero
    omega
  · intro small
    exact Nat.div_eq_of_lt small

theorem clear_iff (above below : BitVec 8) :
    (expand above).setWidth 8 ||| below >>> 6 = (expand above).setWidth 8 ↔ Clear above below := by
  have bit : ∀ i, ((expand above).setWidth 8 ||| below >>> 6).getLsbD i =
      (((expand above).setWidth 8).getLsbD i || below.getLsbD (6 + i)) := by
    intro i
    rw [getLsbD_or, getLsbD_ushiftRight]
  constructor
  · intro same
    by_cases odd : above.getLsbD 0 = true
    · exact .inl odd
    · rw [Bool.not_eq_true] at odd
      have low : ∀ i, i < 2 → below.getLsbD (6 + i) = false := by
        intro i inside
        have here := (bit i).symm.trans (congrArg (·.getLsbD i) same)
        have none_ : ((expand above).setWidth 8).getLsbD i = false := by
          rw [getLsbD_setWidth, bit_expand, if_pos inside, odd, Bool.and_false]
        rw [none_, Bool.false_or] at here
        exact here
      right
      rw [← high_bits_zero]
      apply eq_of_getLsbD_eq
      intro i inside
      rw [getLsbD_ushiftRight, ofNat_eq_ofNat, getLsbD_zero]
      rcases Nat.lt_or_ge i 2 with small | large
      · exact low i small
      · exact getLsbD_of_ge below (6 + i) (by omega)
  · rintro (odd | small)
    · apply eq_of_getLsbD_eq
      intro i inside
      rw [bit]
      simp only [getLsbD_setWidth, bit_expand]
      rcases byte_places inside with rfl | rfl | rfl | rfl | rfl | rfl | rfl | rfl <;> simp [odd]
    · rw [(high_bits_zero below).mpr small]
      exact or_zero

structure Triple where
  r : BitVec 8
  g : BitVec 8
  b : BitVec 8

def Triple.word (t : Triple) : BitVec 32 := rgbOf t.r t.g t.b

structure ChannelsOwn (t : Triple) (word : BitVec 32) : Prop where
  red : word.extractLsb' 16 8 = (rgbOf t.r 0 0).extractLsb' 16 8
  green : word.extractLsb' 8 8 = (rgbOf 0 t.g 0).extractLsb' 8 8
  blue : word.extractLsb' 0 8 = (rgbOf 0 0 t.b).extractLsb' 0 8

def Triple.Plain (t : Triple) : Prop := Clear t.r t.g ∧ Clear t.g t.b

theorem channels_own_iff (t : Triple) : ChannelsOwn t t.word ↔ t.Plain := by
  have zero : (0 : BitVec 8) >>> 6 = 0 := by decide
  have red : t.word.extractLsb' 16 8 = (rgbOf t.r 0 0).extractLsb' 16 8 ↔ Clear t.r t.g := by
    unfold Triple.word
    rw [red_field, red_field, zero, ofNat_eq_ofNat, or_zero]
    exact clear_iff t.r t.g
  have green : t.word.extractLsb' 8 8 = (rgbOf 0 t.g 0).extractLsb' 8 8 ↔ Clear t.g t.b := by
    unfold Triple.word
    rw [green_field, green_field, zero, ofNat_eq_ofNat, or_zero]
    exact clear_iff t.g t.b
  have blue : t.word.extractLsb' 0 8 = (rgbOf 0 0 t.b).extractLsb' 0 8 := by
    unfold Triple.word
    rw [blue_field, blue_field]
  constructor
  · intro own
    exact ⟨red.mp own.red, green.mp own.green⟩
  · intro plain
    exact ⟨red.mpr plain.1, green.mpr plain.2, blue⟩

section

inductive Component where
  | red
  | green
  | blue
deriving DecidableEq

def Component.byte : Component → BitVec 8
  | .red => 0
  | .green => 1
  | .blue => 2

def Triple.get (t : Triple) : Component → BitVec 8
  | .red => t.r
  | .green => t.g
  | .blue => t.b

structure Place where
  index : BitVec 8
  component : Component

def Place.toNat (p : Place) : Nat := 3 * p.index.toNat + p.component.byte.toNat

def Place.next (p : Place) : Place :=
  match p.component with
  | .red => ⟨p.index, .green⟩
  | .green => ⟨p.index, .blue⟩
  | .blue => ⟨p.index + 1, .red⟩

inductive Begun where
  | nothing
  | red (r : BitVec 8)
  | redGreen (r g : BitVec 8)

def Begun.component : Begun → Component
  | .nothing => .red
  | .red _ => .green
  | .redGreen _ _ => .blue

inductive Access where
  | write (port : Port) (val : BitVec 8)
  | readData

/-- The palette with the byte that is read next, the triple that is being written and, for every
    index, the triple that stands there whole and the one that was written whole there last. -/
structure Watched where
  dac : Dac
  reader : Place
  writer : BitVec 8
  begun : Begun
  stored : BitVec 8 → Option Triple
  last : BitVec 8 → Option Triple

def Watched.start (words : BitVec 8 → BitVec 32) : Watched :=
  ⟨vgaInit words, ⟨0, .red⟩, 0, .nothing, fun _ => none, fun _ => none⟩

def Watched.access (w : Watched) : Access → Except Fault Dac
  | .write port val => vgaPortOut w.dac port val
  | .readData => do
      let (_, dac) ← vgaPortIn w.dac
      .ok dac

def Watched.completes (w : Watched) : Access → Option Triple
  | .write .data val =>
      match w.begun with
      | .redGreen r g => some ⟨r, g, val⟩
      | _ => none
  | _ => none

def Watched.note (w : Watched) : Access → Watched
  | .write .mask _ => w
  | .write .idxRd val => { w with reader := ⟨val, .red⟩ }
  | .write .idxWr val => { w with writer := val, begun := .nothing }
  | .write .data val =>
      match w.begun with
      | .nothing => { w with
          begun := .red val
          stored := update w.stored w.writer none }
      | .red r => { w with
          begun := .redGreen r val
          stored := update w.stored w.writer none }
      | .redGreen r g => { w with
          writer := w.writer + 1
          begun := .nothing
          stored := update w.stored w.writer (some ⟨r, g, val⟩)
          last := update w.last w.writer (some ⟨r, g, val⟩) }
  | .readData => { w with reader := w.reader.next }

def watchedStep (w : Watched) (a : Access) : Except Fault Watched := do
  let dac ← w.access a
  .ok { w.note a with dac }

def Begun.Holds (begun : Begun) (index : BitVec 8) (palette : Nat → BitVec 8) : Prop :=
  match begun with
  | .nothing => True
  | .red r => palette (Place.toNat ⟨index, .red⟩) = r
  | .redGreen r g =>
      palette (Place.toNat ⟨index, .red⟩) = r ∧ palette (Place.toNat ⟨index, .green⟩) = g

/-- The registers stand at the places, and the table has what has been written. -/
structure Tracks (w : Watched) : Prop where
  rdIndex : w.dac.rdIndex = w.reader.index
  rdSubindex : w.dac.rdSubindex = w.reader.component.byte
  wrIndex : w.dac.wrIndex = w.writer
  wrSubindex : w.dac.wrSubindex = w.begun.component.byte
  begun : w.begun.Holds w.writer w.dac.palette
  stored : ∀ i t, w.stored i = some t → ∀ c, w.dac.palette (Place.toNat ⟨i, c⟩) = t.get c
  words : ∀ i t, w.last i = some t → w.dac.paletteRgb i = t.word

theorem place_inside (p : Place) : p.toNat < paletteSize := by
  have component : p.component.byte.toNat < 3 := by
    cases p.component <;> decide
  unfold Place.toNat paletteSize
  omega

theorem place_injective {p q : Place} (same : p.toNat = q.toNat) : p = q := by
  obtain ⟨i, c⟩ := p
  obtain ⟨j, d⟩ := q
  unfold Place.toNat at same
  have first : c.byte.toNat < 3 := by cases c <;> decide
  have second : d.byte.toNat < 3 := by cases d <;> decide
  have index : i = j := eq_of_toNat_eq (by dsimp only at same; omega)
  have component : c.byte.toNat = d.byte.toNat := by dsimp only at same; omega
  have named : c = d := by
    cases c <;> cases d <;> first | rfl | exact absurd component (by decide)
  rw [index, named]

theorem load_place (s : Dac) (p : Place) : s.load p.toNat = .ok (s.palette p.toNat) :=
  if_pos (place_inside p)

theorem store_place (s : Dac) (p : Place) (val : BitVec 8) :
    s.store p.toNat val = .ok { s with palette := update s.palette p.toNat val } :=
  if_pos (place_inside p)

variable {w : Watched}

theorem reader_reads (tracks : Tracks w) : vgaPortIn w.dac = .ok (w.dac.palette w.reader.toNat,
      { w.dac with rdIndex := w.reader.next.index, rdSubindex := w.reader.next.component.byte }) := by
  have place : 3 * w.dac.rdIndex.toNat + w.dac.rdSubindex.toNat = w.reader.toNat := by
    rw [tracks.rdIndex, tracks.rdSubindex]
    rfl
  unfold vgaPortIn
  rw [place, load_place, bind_ok rfl, tracks.rdIndex, tracks.rdSubindex]
  obtain ⟨index, component⟩ := w.reader
  cases component <;> rfl

theorem data_writes (tracks : Tracks w) (val : BitVec 8) :
    vgaPortOut w.dac .data val =
      (let s := { w.dac with
        palette := update w.dac.palette (Place.toNat ⟨w.writer, w.begun.component⟩) val
        wrSubindex := w.begun.component.byte + 1 }
      if s.wrSubindex = 3 then tripleDone s else .ok s) := by
  have place : 3 * w.dac.wrIndex.toNat + w.dac.wrSubindex.toNat =
      Place.toNat ⟨w.writer, w.begun.component⟩ := by
    rw [tracks.wrIndex, tracks.wrSubindex]
    rfl
  unfold vgaPortOut
  rw [place, store_place, bind_ok rfl, tracks.wrSubindex]

theorem triple_done (s : Dac) : tripleDone s = .ok { s with
    paletteRgb := update s.paletteRgb s.wrIndex
      (rgbOf (s.palette (Place.toNat ⟨s.wrIndex, .red⟩)) (s.palette (Place.toNat ⟨s.wrIndex, .green⟩))
        (s.palette (Place.toNat ⟨s.wrIndex, .blue⟩)))
    wrIndex := s.wrIndex + 1
    wrSubindex := 0 } := by
  unfold tripleDone
  rw [show 3 * s.wrIndex.toNat + 0 = Place.toNat ⟨s.wrIndex, .red⟩ from rfl,
    show 3 * s.wrIndex.toNat + 1 = Place.toNat ⟨s.wrIndex, .green⟩ from rfl,
    show 3 * s.wrIndex.toNat + 2 = Place.toNat ⟨s.wrIndex, .blue⟩ from rfl,
    load_place, load_place, load_place]
  rfl

theorem update_elsewhere (palette : Nat → BitVec 8) (val : BitVec 8) {p q : Place} (other : q ≠ p) :
    update palette p.toNat val q.toNat = palette q.toNat :=
  update_of_ne (fun same => other (place_injective same)) val palette

theorem other_component {index : BitVec 8} {c d : Component} (other : c ≠ d) :
    (⟨index, c⟩ : Place) ≠ ⟨index, d⟩ :=
  fun same => other (congrArg Place.component same)

theorem stored_kept (tracks : Tracks w) (c : Component) (val : BitVec 8) {i : BitVec 8} {t : Triple}
    (kept : update w.stored w.writer none i = some t) (d : Component) :
    update w.dac.palette (Place.toNat ⟨w.writer, c⟩) val (Place.toNat ⟨i, d⟩) = t.get d := by
  by_cases here : i = w.writer
  · rw [here, update_self] at kept
    cases kept
  · rw [update_of_ne here] at kept
    have other : (⟨i, d⟩ : Place) ≠ ⟨w.writer, c⟩ := fun same => here (congrArg Place.index same)
    rw [update_elsewhere w.dac.palette val other]
    exact tracks.stored i t kept d

theorem tracks_data (tracks : Tracks w) (val : BitVec 8) :
    ∃ w', watchedStep w (.write .data val) = .ok w' ∧ Tracks w' := by
  have holds := tracks.begun
  have writes := stored_kept tracks
  have written := data_writes tracks val
  have index := tracks.wrIndex
  have component : ∀ {c d : Component}, c ≠ d → (⟨w.writer, c⟩ : Place) ≠ ⟨w.writer, d⟩ :=
    fun other => other_component other
  unfold watchedStep Watched.access Watched.note
  dsimp only
  generalize under : w.begun = begun at holds written ⊢
  cases begun with
  | nothing =>
    rw [written]
    refine ⟨_, rfl, tracks.rdIndex, tracks.rdSubindex, tracks.wrIndex, rfl, ?_, ?_, tracks.words⟩
    · exact update_self (Place.toNat ⟨w.writer, .red⟩) val w.dac.palette
    · intro i t kept d
      exact writes .red val kept d
  | red r =>
    rw [written]
    refine ⟨_, rfl, tracks.rdIndex, tracks.rdSubindex, tracks.wrIndex, rfl, ⟨?_, ?_⟩, ?_,
      tracks.words⟩
    · have other : Component.red ≠ .green := by decide
      exact (update_elsewhere w.dac.palette val (component other)).trans holds
    · exact update_self (Place.toNat ⟨w.writer, .green⟩) val w.dac.palette
    · intro i t kept d
      exact writes .green val kept d
  | redGreen r g =>
    have whole : ∀ d, update w.dac.palette (Place.toNat ⟨w.writer, .blue⟩) val
        (Place.toNat ⟨w.writer, d⟩) = (Triple.mk r g val).get d := by
      intro d
      cases d with
      | red => exact (update_elsewhere w.dac.palette val (component (by decide))).trans holds.1
      | green => exact (update_elsewhere w.dac.palette val (component (by decide))).trans holds.2
      | blue => exact update_self (Place.toNat ⟨w.writer, .blue⟩) val w.dac.palette
    have three : (2 : BitVec 8) + 1 = 3 := by decide
    have word : rgbOf r g val = (Triple.mk r g val).word := rfl
    rw [written.trans (if_pos three), triple_done]
    dsimp only [Begun.component]
    rw [index, whole .red, whole .green, whole .blue]
    refine ⟨_, rfl, tracks.rdIndex, tracks.rdSubindex, rfl, rfl, trivial, ?_, ?_⟩
    · intro i t kept d
      by_cases here : i = w.writer
      · subst here
        dsimp only at kept
        rw [update_self] at kept
        cases kept
        exact whole d
      · have other : (⟨i, d⟩ : Place) ≠ ⟨w.writer, .blue⟩ :=
          fun same => here (congrArg Place.index same)
        dsimp only at kept
        rw [update_of_ne here] at kept
        exact (update_elsewhere w.dac.palette val other).trans (tracks.stored i t kept d)
    · intro i t kept
      dsimp only at kept ⊢
      by_cases here : i = w.writer
      · subst here
        rw [update_self] at kept ⊢
        cases kept
        exact word
      · rw [update_of_ne here] at kept ⊢
        exact tracks.words i t kept

theorem tracks_step (tracks : Tracks w) (a : Access) :
    ∃ w', watchedStep w a = .ok w' ∧ Tracks w' := by
  cases a with
  | readData =>
    unfold watchedStep Watched.access
    rw [reader_reads tracks]
    exact ⟨_, rfl, rfl, rfl, tracks.wrIndex, tracks.wrSubindex, tracks.begun, tracks.stored,
      tracks.words⟩
  | write port val =>
    cases port with
    | mask => exact ⟨w, rfl, tracks⟩
    | idxRd =>
      exact ⟨_, rfl, rfl, rfl, tracks.wrIndex, tracks.wrSubindex, tracks.begun, tracks.stored,
        tracks.words⟩
    | idxWr =>
      exact ⟨_, rfl, tracks.rdIndex, tracks.rdSubindex, rfl, rfl, trivial, tracks.stored,
        tracks.words⟩
    | data => exact tracks_data tracks val

/-- The access stays inside of the table, and what is read of a triple that stands there whole is
    what was written of it. -/
structure Reads (w : Watched) (a : Access) : Prop where
  inside : ∃ w', watchedStep w a = .ok w'
  readBack : a = .readData → ∀ t, w.stored w.reader.index = some t →
    ∀ val dac, vgaPortIn w.dac = .ok (val, dac) → val = t.get w.reader.component

/-- The words of the triples that were written whole have channels of their own. -/
def Apart (w : Watched) : Prop := ∀ i t, w.last i = some t → ChannelsOwn t (w.dac.paletteRgb i)

structure ReadsApart (w : Watched) (a : Access) : Prop extends Reads w a where
  apart : ∀ w', watchedStep w a = .ok w' → Apart w'

/-- A triple that the access makes whole carries nothing that is seen in another channel. -/
def CarriesNothing (w : Watched) (a : Access) : Prop := ∀ t, w.completes a = some t → t.Plain

theorem start_tracks (words : BitVec 8 → BitVec 32) : Tracks (.start words) := by
  refine ⟨rfl, rfl, rfl, rfl, trivial, ?_, ?_⟩
  · intro i t none_
    cases none_
  · intro i t none_
    cases none_

theorem reads_of_tracks (tracks : Tracks w) (a : Access) : Reads w a := by
  constructor
  · obtain ⟨w', taken, -⟩ := tracks_step tracks a
    exact ⟨w', taken⟩
  · intro _ t whole val dac read
    rw [reader_reads tracks] at read
    cases read
    exact tracks.stored w.reader.index t whole w.reader.component

theorem apart_iff (tracks : Tracks w) : Apart w ↔ ∀ i t, w.last i = some t → t.Plain := by
  have each : ∀ i t, w.last i = some t → (ChannelsOwn t (w.dac.paletteRgb i) ↔ t.Plain) := by
    intro i t whole
    rw [tracks.words i t whole]
    exact channels_own_iff t
  constructor
  · intro apart i t whole
    exact (each i t whole).mp (apart i t whole)
  · intro plain i t whole
    exact (each i t whole).mpr (plain i t whole)

theorem step_notes {w' : Watched} {a : Access} (taken : watchedStep w a = .ok w') :
    w'.last = (w.note a).last := by
  obtain ⟨dac, -, rest⟩ := bind_ok_split taken
  cases rest
  rfl

theorem note_last (w : Watched) (a : Access) : (w.note a).last =
    match w.completes a with
    | some t => update w.last w.writer (some t)
    | none => w.last := by
  cases a with
  | readData => rfl
  | write port val =>
    cases port with
    | mask => rfl
    | idxRd => rfl
    | idxWr => rfl
    | data =>
      unfold Watched.note Watched.completes
      cases w.begun <;> rfl

theorem reads_apart_iff (tracks : Tracks w) (apart : Apart w) (a : Access) : ReadsApart w a ↔ CarriesNothing w a := by
  have before := (apart_iff tracks).mp apart
  obtain ⟨w', taken, tracks'⟩ := tracks_step tracks a
  have last := (step_notes taken).trans (note_last w a)
  constructor
  · intro reads t completes
    have after := (apart_iff tracks').mp (reads.apart w' taken)
    rw [completes] at last
    apply after w.writer t
    rw [last]
    exact update_self w.writer (some t) w.last
  · intro carries
    refine ⟨reads_of_tracks tracks a, ?_⟩
    intro w'' taken'
    rw [taken] at taken'
    cases taken'
    rw [apart_iff tracks']
    intro i t whole
    rw [last] at whole
    cases completes : w.completes a with
    | none =>
      rw [completes] at whole
      exact before i t whole
    | some t' =>
      rw [completes] at whole
      dsimp only at whole
      by_cases here : i = w.writer
      · rw [here, update_self] at whole
        cases whole
        exact carries t completes
      · rw [update_of_ne here] at whole
        exact before i t whole

/-- Along every run the table is not left and triples read back, and the channels stay apart exactly
    in the runs whose triples carry nothing that is seen. -/
theorem palette_right (words : BitVec 8 → BitVec 32) (accesses : List Access) :
    AlongAttempts watchedStep Reads (.start words) accesses ∧
    (AlongAttempts watchedStep ReadsApart (.start words) accesses ↔
      AlongAttempts watchedStep CarriesNothing (.start words) accesses) := by
  have start := start_tracks words
  have keeps : ∀ w a w', Tracks w → watchedStep w a = .ok w' → Tracks w' := by
    intro w a w' tracks taken
    obtain ⟨w'', taken', tracks'⟩ := tracks_step tracks a
    rw [taken] at taken'
    cases taken'
    exact tracks'
  constructor
  · exact along_attempts_of_invariant (fun w a w' tracks _ taken => keeps w a w' tracks taken)
      (fun w a tracks _ => reads_of_tracks tracks a) accesses _ start
      (along_attempts_always (q := fun _ _ => True) (fun _ _ => trivial) accesses _)
  · have both : ∀ w a w', Tracks w ∧ Apart w → CarriesNothing w a → watchedStep w a = .ok w' →
        Tracks w' ∧ Apart w' := by
      rintro w a w' ⟨tracks, apart⟩ carries taken
      have reads := (reads_apart_iff tracks apart a).mpr carries
      exact ⟨keeps w a w' tracks taken, reads.apart w' taken⟩
    have apart : Apart (.start words) := by
      intro i t none_
      cases none_
    exact along_attempts_iff_of_invariant both (fun w a holds => reads_apart_iff holds.1 holds.2 a)
      accesses _ ⟨start, apart⟩

theorem green_in_red : ¬AlongAttempts watchedStep ReadsApart (.start fun _ => 0)
      [.write .idxWr 0, .write .data 0, .write .data 64, .write .data 0] := by
  rintro ⟨-, -, -, reads, -⟩
  have own := reads.apart _ rfl 0 ⟨0, 64, 0⟩ rfl
  exact absurd own.red (by decide)

end

end VgaDac
