import PackedFields.Layout

/-!
# Sample records

A few containers, by name. Between them they have backing integers of all sizes, signed and
unsigned, shared and not, and sub-fields of every kind.
-/

namespace PackedFields.Sample

/-- The unsigned type of a size. -/
def u (size : IntSize) : IntType := ⟨false, size⟩

/-- The signed type of a size. -/
def i (size : IntSize) : IntType := ⟨true, size⟩

/-- A sub-field that is a truth value. -/
def flag (name : String) : SubField := ⟨.bool, 1, ⟨name, false⟩, .nowhere⟩

/-- A sub-field that is an integer. -/
def part (type : IntType) (width : Nat) (name : String) : SubField :=
  ⟨.int type, width, ⟨name, false⟩, .nowhere⟩

/-- A container. -/
def container (name : String) : Container :=
  { name := ⟨name, false⟩, place := .nowhere, visibility := .known .restricted }

/-- A field of an instance. -/
def field (owner : String) (name : Name) (backing : IntType) (parts : List SubField) : Schema :=
  { field := name, backing, subFields := parts, container := container owner }

/-- A shared field. -/
def sharedField (owner : String) (name : Name) (backing : IntType) (parts : List SubField) :
    Schema :=
  { field owner name backing parts with shared := true }

/-- The names of the samples, with their backing fields. -/
def all : List (String × List Schema) := [
  ("Data", [
    field "Data" ⟨"i", false⟩ (u .w64) [part (i .w32) 3 "A", flag "B"]]),
  ("Mixed", [
    field "Mixed" ⟨"word", false⟩ (u .w64) [part (u .w8) 4 "nibble", flag "Flag",
      part (u .w16) 11 "wide", part (i .w8) 8 "Signed", part (u .w64) 40 "rest"]]),
  ("Full", [
    field "Full" ⟨"raw", false⟩ (u .w32) [part (u .w32) 32 "all"],
    field "Full" ⟨"signed", false⟩ (i .w64) [part (i .w64) 64 "whole"],
    field "Full" ⟨"small", false⟩ (u .w8) [part (i .w8) 8 "byte"]]),
  ("Wide", [
    field "Wide" ⟨"bits", false⟩ (u .w128) [part (u .w64) 64 "low", part (u .w64) 64 "high"],
    field "Wide" ⟨"sbits", false⟩ (i .w128) [part (i .w128) 127 "body", flag "sign"]]),
  ("Status", [
    field "Status" ⟨"word", false⟩ (u .w32) [part (u .w8) 3 "mode", flag "armed",
      part (u .w16) 6 "count"]]),
  ("Neg", [
    field "Neg" ⟨"a", false⟩ (i .w8) [part (i .w8) 3 "lo", part (i .w16) 4 "hi", flag "top"],
    field "Neg" ⟨"b", false⟩ (i .w16) [part (u .w128) 10 "p", part (i .w128) 6 "q"],
    field "Neg" ⟨"loop", true⟩ (i .w32) [flag "Type", part (i .w64) 30 "Self_", flag "msb"]]),
  ("Shared", [
    field "Shared" ⟨"own", false⟩ (u .w16) [part (u .w8) 8 "local"],
    sharedField "Shared" ⟨"mode", false⟩ (u .w16) [part (u .w8) 4 "Level", flag "Verbose"],
    sharedField "Shared" ⟨"global", false⟩ (i .w64) [part (i .w16) 16 "low",
      part (i .w32) 32 "mid", flag "last"]]),
  ("Tagged", [
    field "Tagged" ⟨"meta", false⟩ (u .w8) [part (u .w8) 2 "kind", flag "valid"]])]

/-- The backing fields of the sample of the given name. -/
def find? (name : String) : Option (List Schema) := all.lookup name

end PackedFields.Sample
