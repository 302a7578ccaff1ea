/-!
Sample sources of any length: a few lines of each kind, and declarations repeated in turn until
there are enough of them.
-/

namespace MexBridge.Workload

/-- The first `n` of the elements of `xs` repeated without end. -/
def cycle {α : Type} (n : Nat) (xs : List α) : List α :=
  (List.range n).filterMap fun i => xs[i % xs.length]?

/-- Repeats `xs` in turn until there are `n` elements, each at least once. -/
def cycleTo {α : Type} (n : Nat) (xs : List α) : List α := cycle (max n xs.length) xs

/-- Joins lines to a text that ends with a line end. -/
def text (lines : List String) : String := "\n".intercalate lines ++ "\n"

def declarationLine (d : String) : String := "# " ++ d

/-- Lines of the other kinds. -/
def preamble : List String := [
    "function test_all",
    "// a comment line",
    "  @function y = helper(x)",
    "  $ #include <stdio.h>",
    "$[",
    "int foo(int a) \x7b return a + 1; \x7d",
    "$]",
    "@ ",
    "% just matlab text"]

/-- Declarations of every kind of variable. -/
def declarations : List String := [
    "typedef numeric mynum;",
    "typedef dcomplex mycplx;",
    "typedef fcomplex myfcplx;",
    "typedef mxArray MyMx;",
    "class Derived : Base, Other;",
    "class Child : Base;",
    "double z = sumpair(double x, double y);",
    "double[n] v = getvec(int n);",
    "double[m,n] M = getmat(int m, int n);",
    "float[n] fv = getvecf(int n);",
    "int r = add2(int 2);",
    "int* p = getptr(int 5);",
    "int& rr = getref(int 5);",
    "dcomplex zc = cadd(dcomplex a, dcomplex b);",
    "fcomplex fc = cfadd(fcomplex a, fcomplex b);",
    "cstring s = greet();",
    "mxArray mm = getmx();",
    "Obj o = makeobj();",
    "Obj* op = makeobjp();",
    "Obj& orr = makeobjr();",
    "MyMx mo = makemymx();",
    "MyMx* mop = makemymxp();",
    "MyMx& morr = makemymxr();",
    "Base* bp = new Derived(int x);",
    "h->Obj.method(double x, inout double[n] a, int n);",
    "fill(output double[n] out, int n);",
    "fill2(output double[m,n] out, int m, int n);",
    "fillf(output float[n] out, int n);",
    "fillz(output dcomplex[n] out, int n);",
    "fillc(output fcomplex[n] out, int n);",
    "filli(output int[n] out, int n);",
    "io(inout double[] a);",
    "io1(inout double[n] a, int n);",
    "io2(inout double[m,n] a, int m, int n);",
    "iof(inout float[] a);",
    "ioz(inout dcomplex[] a);",
    "ioi(inout int[] a);",
    "ref(output double[n]& r, int n);",
    "ref2(output double[m,n]& r, int m, int n);",
    "sc(output int* y);",
    "scz(output dcomplex* y);",
    "scr(output int& y);",
    "scrz(output dcomplex& y);",
    "scrc(output fcomplex& y);",
    "str(output cstring[k] s, int k);",
    "strin(cstring s);",
    "strio(inout cstring[k] s, int k);",
    "mxout(output mxArray m);",
    "mxin(mxArray m);",
    "use(Base* b, Obj o, Obj& ro);",
    "usemx(MyMx m, output MyMx mo, inout MyMx mb);",
    "useconst(const 'hello', const 42);",
    "usechar(char c);",
    "use32(int32_t i, int64_t j, uint32_t k, uint64_t l);",
    "useu(uint i, ulong j, ushort k, uchar l);",
    "din(double[n] a, int n);",
    "din2(double[m,n] a, int m, int n);",
    "fin(float[n] a, int n);",
    "zin(dcomplex[n] a, int n);",
    "iin(int[n] a, int n);",
    "FORTRAN ffoo(output int* a, int 1, int 2);",
    "FORTRAN fbar(double[n] x, inout double[n] y, int n);",
    "FORTRAN f_baz(dcomplex z, fcomplex c, int& r);",
    "FORTRAN fmx(mxArray m);",
    "double rf = FORTRAN fret();",
    "double z = sumpair(double x, double y);",
    "postqual(double x[n], int n);",
    "double rv[n] = postret(int n);",
    "fillcpu(cpu output double[n] out, int n);"]

/-- Declarations of arrays on the graphics device. -/
def gpuDeclarations : List String := [
    "gpufill(gpu double[] a, gpu output double[n] r, int n);",
    "gpufill2(gpu output double[m,n] r, int m, int n);",
    "gpuz(gpu output dcomplex[n] r, int n);",
    "gpuio(gpu inout double[] a);",
    "gpuin(gpu input double[] a);"]

/-- A source with at least `n` declarations. -/
def compose (n : Int) (gpu : Bool) : String :=
  let ds := if gpu then declarations ++ gpuDeclarations else declarations
  text (preamble ++ (cycleTo n.toNat ds).map declarationLine)

/-- One line after the other of each kind; the file included is `includedText`. -/
def mixedLines : List String := [
    "% matlab line",
    "// a comment line",
    "  @function [a, b] = helper(x, y)",
    "  $ int x = 1;",
    "@ ",
    "$[",
    "double half(double);",
    "$]",
    "@include ./inc.mw",
    "# double z = sumpair(double x, double y);",
    "# fill(output double[n] out, int n);",
    "# Base* bp = new Derived(int x);",
    "# FORTRAN f(inout double* y, int n);",
    "# use(const 'hello', const 42, int n);",
    "    indented text line"]

def includedText : String := text ["% included text", "# int r = add2(int 2);"]

/-- A source of `n` lines of all kinds. -/
def mixed (n : Int) : String := text (cycle n.toNat mixedLines)

/-- Statements with one error each. The last ones declare no routine. -/
def faulty : List String := [
    "double[a,b,c] x = cube();",
    "eat(double[a,b,c] x);",
    "eatz(dcomplex[n]& z);",
    "eatc(fcomplex[n]& c);",
    "cuberef(output double[a,b,c]& r);",
    "starconst(const* c);",
    "starstring(cstring* s);",
    "grid(cstring[m,n] s);",
    "starmx(mxArray* m);",
    "crowd(Obj[n] o);",
    "double[] x = sizeless();",
    "const c = fixed();",
    "double[n]& r = refback(int n);",
    "cstring[n] s = longname(int n);",
    "number(output int* 5);",
    "objout(output Obj o);",
    "objio(inout Obj* o);",
    "noroom(output double[] x);",
    "noroomz(output dcomplex[] z);",
    "bare(output double x);",
    "bareio(inout int n);",
    "constout(output const c);",
    "stringout(output cstring s);",
    "mxio(inout mxArray m);",
    "FORTRAN fobj(Obj o);",
    "FORTRAN fref(output double[n]& r);",
    "double[n] v = FORTRAN farray();",
    "cstring s = FORTRAN fstring();",
    "typedef nothing t1;",
    "typedef scalar t2;",
    "class Lonely;",
    "typedef numeric;",
    "double z = ;",
    "unclosed(double x;",
    "h->Obj(double x);"]

/-- A source with at least `n` faulty statements. -/
def faultyText (n : Int) : String := text ((cycleTo n.toNat faulty).map declarationLine)

/-- One declaration for each of three outputs in a batch. -/
def redirected : List String := [
    "@function y = helper(x)",
    "# double z = sumpair(double x, double y);",
    "@ other.m",
    "# double z = sumpair(double x, double y);",
    "@ ",
    "# double z = sumpair(double x, double y);"]

/-- A source for a batch, in rounds of three declarations; `n` declarations, or up to two fewer,
but not less than one round. -/
def redirectedText (n : Int) : String :=
  text (List.replicate (max 1 (n.toNat / 3)) redirected).flatten

end MexBridge.Workload
