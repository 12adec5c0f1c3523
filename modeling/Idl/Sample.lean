/-
This file holds a small schema to try the library on, and its description.
-/

import Idl.Compile
import Idl.Schema.Summary

namespace Idl.Sample

/-- The label of the sample in reports. -/
def file : String := "geo.idl"

/-- A geometry service. -/
def text : String :=
  "// A small geometry service.\n" ++
  "\n" ++
  "message Point \x7b\n" ++
  "\tint32 x\n" ++
  "\tint32 y\n" ++
  "\x7d\n" ++
  "\n" ++
  "message Rect \x7b\n" ++
  "\tPoint min\n" ++
  "\tPoint max\n" ++
  "\tstring label\n" ++
  "\x7d\n" ++
  "\n" ++
  "service Geo \x7b\n" ++
  "\tPoint add(Point, Point)\n" ++
  "\tRect bounds(Point, Point)\n" ++
  "\tfloat64 area(Rect)\n" ++
  "\tvoid ping(void)\n" ++
  "\t// the upload carries raw points\n" ++
  "\tuint32 upload(string, istream)\n" ++
  "\x7d\n"

/-- The description of the sample. -/
def summary : Except CompileError String :=
  match compileText file text with
  | .error error => .error error
  | .ok schema => .ok schema.summary

end Idl.Sample
