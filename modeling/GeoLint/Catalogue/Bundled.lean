import GeoLint.Catalogue.Basic

/-!
# The bundled catalogue

The commands that are known when no other catalogue is given.
-/

namespace GeoLint

namespace Catalogue

/-- Commands that change objects: value, style, labels, order. -/
def objectCommands : List Record :=
  [⟨"SetValue( <Object>, <Object> ) | SetValue( <List>, <Number>, <Object> )",
    "SetValue",
    "Sets the value of a free object, or of the n-th element of a free list.",
    [⟨"Set slider a to 1", "SetValue(a, 1)"⟩,
     ⟨"Replace the second element of list L", "SetValue(L, 2, 5)"⟩],
    "Only free (independent) objects can be changed."⟩,
   ⟨"Point( <Object> ) | Point( <Object>, <Parameter> ) | Point( <Point>, <Vector> ) | Point( <List> )",
    "Point",
    "Creates a point on a geometric object, or translates a point by a vector.",
    [⟨"Point on line g", "Point(g)"⟩, ⟨"Point from a coordinate list", "Point(\x7b1, 2\x7d)"⟩],
    ""⟩,
   ⟨"Distance( <Point>, <Object> ) | Distance( <Line>, <Line> )",
    "Distance",
    "Yields the shortest distance between a point and an object, or between two lines.",
    [⟨"Distance between points A and B", "Distance(A, B)"⟩],
    ""⟩,
   ⟨"SetColor( <Object>, <\"Color\"> ) | SetColor( <Object>, <Number Red>, <Number Green>, <Number Blue> )",
    "SetColor",
    "Changes the color of an object, by name or by RGB components between 0 and 1.",
    [⟨"Color A red", "SetColor(A, \"red\")"⟩, ⟨"Color A by RGB", "SetColor(A, 1, 0, 0)"⟩],
    "Color names are case insensitive."⟩,
   ⟨"SetVisibleInView( <Object>, <View Number 1|2|-1>, <Boolean> )",
    "SetVisibleInView",
    "Shows or hides an object in the given Graphics View.",
    [⟨"Hide A in Graphics View 1", "SetVisibleInView(A, 1, false)"⟩],
    "Use -1 for the 3D Graphics View."⟩,
   ⟨"SetVisible( <Object>, <Boolean> )",
    "SetVisible",
    "Shows or hides an object in all views.",
    [⟨"Hide A", "SetVisible(A, false)"⟩],
    ""⟩,
   ⟨"SetCaption( <Object>, <Text> )",
    "SetCaption",
    "Changes the caption of an object.",
    [⟨"Caption A as Origin", "SetCaption(A, \"Origin\")"⟩],
    ""⟩,
   ⟨"SetLabelMode( <Object>, <Number 0|1|2|3|9> )",
    "SetLabelMode",
    "Changes the label mode of an object: name, name and value, value, caption, caption and value.",
    [⟨"Show the value of A", "SetLabelMode(A, 2)"⟩],
    ""⟩,
   ⟨"ShowLabel( <Object>, <Boolean> )",
    "ShowLabel",
    "Shows or hides the label of an object.",
    [⟨"Show the label of A", "ShowLabel(A, true)"⟩],
    ""⟩,
   ⟨"SetLineThickness( <Object>, <Number> )",
    "SetLineThickness",
    "Changes the line thickness of an object, from 1 to 13.",
    [⟨"Thick line", "SetLineThickness(f, 8)"⟩],
    ""⟩,
   ⟨"SetLineStyle( <Object>, <Number 0|1|2|3|4> )",
    "SetLineStyle",
    "Changes the line style: full, dashed long, dashed short, dotted, dash-dot.",
    [⟨"Dotted line", "SetLineStyle(g, 3)"⟩],
    ""⟩,
   ⟨"SetPointSize( <Object>, <Number> )",
    "SetPointSize",
    "Changes the size of a point, from 1 to 9.",
    [⟨"Large point", "SetPointSize(A, 7)"⟩],
    ""⟩,
   ⟨"SetPointStyle( <Point>, <Number> )",
    "SetPointStyle",
    "Changes the point style, from 0 to 10.",
    [⟨"Cross style", "SetPointStyle(A, 1)"⟩],
    ""⟩,
   ⟨"SetFilling( <Object>, <Number> )",
    "SetFilling",
    "Changes the opacity of an object's filling, between 0 and 1.",
    [⟨"Half transparent polygon", "SetFilling(poly1, 0.5)"⟩],
    ""⟩,
   ⟨"SetFixed( <Object>, <Boolean> ) | SetFixed( <Object>, <Boolean>, <Boolean> )",
    "SetFixed",
    "Makes an object fixed or free; the optional third argument controls selection.",
    [⟨"Fix A", "SetFixed(A, true)"⟩],
    ""⟩,
   ⟨"SetTrace( <Object>, <Boolean> )",
    "SetTrace",
    "Turns tracing of an object on or off.",
    [⟨"Trace P", "SetTrace(P, true)"⟩],
    ""⟩,
   ⟨"SetLayer( <Object>, <Layer> )",
    "SetLayer",
    "Moves an object to the given layer, from 0 to 9.",
    [⟨"Move A to layer 2", "SetLayer(A, 2)"⟩],
    ""⟩,
   ⟨"SetCoords( <Object>, <x>, <y> ) | SetCoords( <Object>, <x>, <y>, <z> )",
    "SetCoords",
    "Changes the cartesian coordinates of a free object.",
    [⟨"Move A", "SetCoords(A, 3, 4)"⟩],
    ""⟩,
   ⟨"SetDecoration( <Object>, <Number> )",
    "SetDecoration",
    "Changes the decoration of a segment or an angle.",
    [⟨"Tick mark on s", "SetDecoration(s, 1)"⟩],
    ""⟩,
   ⟨"SetBackgroundColor( <Object>, <\"Color\"> ) | SetBackgroundColor( <\"Color\"> )",
    "SetBackgroundColor",
    "Changes the background color of an object or of the Graphics View.",
    [⟨"Yellow background", "SetBackgroundColor(\"yellow\")"⟩],
    ""⟩,
   ⟨"SetConditionToShowObject( <Object>, <Condition> )",
    "SetConditionToShowObject",
    "Makes an object visible only when the condition holds.",
    [⟨"Show A when b is true", "SetConditionToShowObject(A, b)"⟩],
    ""⟩,
   ⟨"SetTooltipMode( <Object>, <Number> )",
    "SetTooltipMode",
    "Changes the tooltip mode of an object.",
    [],
    ""⟩,
   ⟨"Rename( <Object>, <Name> )",
    "Rename",
    "Renames an object.",
    [⟨"Rename A to B", "Rename(A, \"B\")"⟩],
    ""⟩,
   ⟨"Delete( <Object> )",
    "Delete",
    "Deletes an object and all its dependent objects.",
    [⟨"Delete A", "Delete(A)"⟩],
    ""⟩,
   ⟨"CopyFreeObject( <Object> )",
    "CopyFreeObject",
    "Creates a free copy of an object.",
    [],
    ""⟩]

/-- Commands of plane geometry. -/
def geometryCommands : List Record :=
  [⟨"Segment( <Point>, <Point> ) | Segment( <Point>, <Length> )",
    "Segment",
    "Creates a segment between two points, or of the given length starting at a point.",
    [⟨"Segment AB", "Segment(A, B)"⟩],
    ""⟩,
   ⟨"Line( <Point>, <Point> ) | Line( <Point>, <Parallel Line> ) | Line( <Point>, <Direction Vector> )",
    "Line",
    "Creates a line through two points, parallel to a line, or with a direction vector.",
    [⟨"Line through A and B", "Line(A, B)"⟩],
    ""⟩,
   ⟨"Ray( <Start Point>, <Point> ) | Ray( <Start Point>, <Direction Vector> )",
    "Ray",
    "Creates a ray from a start point.",
    [⟨"Ray from A through B", "Ray(A, B)"⟩],
    ""⟩,
   ⟨"Vector( <Point> ) | Vector( <Start Point>, <End Point> )",
    "Vector",
    "Creates a position vector, or a vector between two points.",
    [⟨"Vector from A to B", "Vector(A, B)"⟩],
    ""⟩,
   ⟨"Polygon( <Point>, ..., <Point> ) | Polygon( <Point>, <Point>, <Number of Vertices> ) | Polygon( <List of Points> )",
    "Polygon",
    "Creates a polygon from points, a regular polygon, or a polygon from a list of points.",
    [⟨"Triangle ABC", "Polygon(A, B, C)"⟩, ⟨"Regular hexagon", "Polygon(A, B, 6)"⟩],
    ""⟩,
   ⟨"Polyline( <List of Points> ) | Polyline( <Point>, ..., <Point> )",
    "Polyline",
    "Creates an open polygonal chain.",
    [],
    ""⟩,
   ⟨"Circle( <Point>, <Radius Number> ) | Circle( <Point>, <Segment> ) | Circle( <Point>, <Point> ) | Circle( <Point>, <Point>, <Point> )",
    "Circle",
    "Creates a circle from a center and radius, a center and a point, or three points.",
    [⟨"Circle with center A and radius 3", "Circle(A, 3)"⟩],
    ""⟩,
   ⟨"Semicircle( <Point>, <Point> )",
    "Semicircle",
    "Creates a semicircle above the segment between two points.",
    [],
    ""⟩,
   ⟨"CircularArc( <Midpoint>, <Point A>, <Point B> )",
    "CircularArc",
    "Creates a circular arc with the given midpoint between two points.",
    [],
    ""⟩,
   ⟨"CircularSector( <Midpoint>, <Point A>, <Point B> )",
    "CircularSector",
    "Creates a circular sector with the given midpoint between two points.",
    [],
    ""⟩,
   ⟨"Ellipse( <Focus>, <Focus>, <Semimajor Axis Length> ) | Ellipse( <Focus>, <Focus>, <Point> )",
    "Ellipse",
    "Creates an ellipse from two foci.",
    [],
    ""⟩,
   ⟨"Parabola( <Point>, <Line> )",
    "Parabola",
    "Creates a parabola with the given focus and directrix.",
    [],
    ""⟩,
   ⟨"Hyperbola( <Focus>, <Focus>, <Semimajor Axis Length> ) | Hyperbola( <Focus>, <Focus>, <Point> )",
    "Hyperbola",
    "Creates a hyperbola from two foci.",
    [],
    ""⟩,
   ⟨"Midpoint( <Segment> ) | Midpoint( <Point>, <Point> ) | Midpoint( <Conic> )",
    "Midpoint",
    "Returns the midpoint of a segment, of two points, or the center of a conic.",
    [⟨"Midpoint of A and B", "Midpoint(A, B)"⟩],
    ""⟩,
   ⟨"Center( <Conic> )",
    "Center",
    "Returns the center of a conic.",
    [],
    ""⟩,
   ⟨"Radius( <Conic> )",
    "Radius",
    "Returns the radius of a circle.",
    [],
    ""⟩,
   ⟨"Area( <Point>, ..., <Point> ) | Area( <Conic> ) | Area( <Polygon> )",
    "Area",
    "Computes the area of a polygon or a conic.",
    [],
    ""⟩,
   ⟨"Perimeter( <Polygon> ) | Perimeter( <Conic> )",
    "Perimeter",
    "Returns the perimeter of a polygon or a conic.",
    [],
    ""⟩,
   ⟨"Length( <Object> ) | Length( <Function>, <Start x-Value>, <End x-Value> )",
    "Length",
    "Yields the length of an object, or the arc length of a function between two values.",
    [],
    ""⟩,
   ⟨"Angle( <Object> ) | Angle( <Vector>, <Vector> ) | Angle( <Line>, <Line> ) | Angle( <Point>, <Apex>, <Point> ) | Angle( <Point>, <Apex>, <Angle> )",
    "Angle",
    "Creates or measures an angle.",
    [⟨"Angle ABC", "Angle(A, B, C)"⟩],
    ""⟩,
   ⟨"AngleBisector( <Line>, <Line> ) | AngleBisector( <Point>, <Point>, <Point> )",
    "AngleBisector",
    "Creates the angle bisectors of two lines or of an angle given by three points.",
    [],
    ""⟩,
   ⟨"PerpendicularLine( <Point>, <Line> ) | PerpendicularLine( <Point>, <Segment> ) | PerpendicularLine( <Point>, <Vector> )",
    "PerpendicularLine",
    "Creates a line through a point perpendicular to a line, segment or vector.",
    [],
    ""⟩,
   ⟨"PerpendicularBisector( <Segment> ) | PerpendicularBisector( <Point>, <Point> )",
    "PerpendicularBisector",
    "Creates the perpendicular bisector of a segment.",
    [],
    ""⟩,
   ⟨"Tangent( <Point>, <Conic> ) | Tangent( <Point>, <Function> ) | Tangent( <x-Value>, <Function> ) | Tangent( <Line>, <Conic> )",
    "Tangent",
    "Creates tangents to a conic or a function.",
    [],
    ""⟩,
   ⟨"Intersect( <Object>, <Object> ) | Intersect( <Object>, <Object>, <Index of Intersection Point> ) | Intersect( <Function>, <Function>, <Start x-Value>, <End x-Value> )",
    "Intersect",
    "Yields the intersection points of two objects.",
    [⟨"Intersection of two lines", "Intersect(f, g)"⟩],
    ""⟩,
   ⟨"Translate( <Object>, <Vector> ) | Translate( <Vector>, <Start Point> )",
    "Translate",
    "Translates an object by a vector.",
    [],
    ""⟩,
   ⟨"Rotate( <Object>, <Angle> ) | Rotate( <Object>, <Angle>, <Point> )",
    "Rotate",
    "Rotates an object by an angle, around the origin or a point.",
    [⟨"Rotate A by 90 degrees around B", "Rotate(A, 90°, B)"⟩],
    ""⟩,
   ⟨"Reflect( <Object>, <Point> ) | Reflect( <Object>, <Line> ) | Reflect( <Object>, <Circle> )",
    "Reflect",
    "Reflects an object about a point, a line or a circle.",
    [],
    ""⟩,
   ⟨"Dilate( <Object>, <Dilation Factor> ) | Dilate( <Object>, <Dilation Factor>, <Dilation Center Point> )",
    "Dilate",
    "Dilates an object by a factor, from the origin or a point.",
    [],
    ""⟩]

/-- Functions, controls, lists and numbers. -/
def analysisCommands : List Record :=
  [⟨"Function( <Function>, <Start x-Value>, <End x-Value> )",
    "Function",
    "Restricts a function to an interval.",
    [],
    ""⟩,
   ⟨"Derivative( <Function> ) | Derivative( <Function>, <Number> ) | Derivative( <Function>, <Variable> )",
    "Derivative",
    "Returns the derivative of a function.",
    [],
    ""⟩,
   ⟨"Integral( <Function> ) | Integral( <Function>, <Start x-Value>, <End x-Value> )",
    "Integral",
    "Returns an antiderivative, or the definite integral between two values.",
    [],
    ""⟩,
   ⟨"Root( <Polynomial> ) | Root( <Function>, <Initial x-Value> ) | Root( <Function>, <Start x-Value>, <End x-Value> )",
    "Root",
    "Yields the roots of a function.",
    [],
    ""⟩,
   ⟨"Extremum( <Polynomial> ) | Extremum( <Function>, <Start x-Value>, <End x-Value> )",
    "Extremum",
    "Yields the local extrema of a function.",
    [],
    ""⟩,
   ⟨"Slope( <Line> )",
    "Slope",
    "Returns the slope of a line.",
    [],
    ""⟩,
   ⟨"Curve( <Expression>, <Expression>, <Parameter Variable>, <Start Value>, <End Value> )",
    "Curve",
    "Creates a parametric curve in the plane.",
    [],
    ""⟩,
   ⟨"Slider( <Min>, <Max> ) | Slider( <Min>, <Max>, <Increment> )",
    "Slider",
    "Creates a slider.",
    [⟨"Slider from 0 to 10", "a = Slider(0, 10)"⟩],
    ""⟩,
   ⟨"Text( <Object> ) | Text( <Object>, <Point> )",
    "Text",
    "Returns the formula of an object as a text, optionally at a position.",
    [],
    ""⟩,
   ⟨"Sequence( <End Value> ) | Sequence( <Expression>, <Variable>, <Start Value>, <End Value> ) | Sequence( <Expression>, <Variable>, <Start Value>, <End Value>, <Increment> )",
    "Sequence",
    "Creates a list of objects by evaluating an expression over a range.",
    [⟨"Numbers 1 to 5", "Sequence(5)"⟩],
    ""⟩,
   ⟨"Zip( <Expression>, <Var1>, <List1>, ... )",
    "Zip",
    "Creates a list by substituting elements of lists into an expression.",
    [],
    ""⟩,
   ⟨"Sum( <List> ) | Sum( <List>, <Number of Elements> )",
    "Sum",
    "Calculates the sum of the elements of a list.",
    [⟨"Sum of a list", "Sum(\x7b1, 2, 3\x7d)"⟩],
    ""⟩,
   ⟨"Element( <List>, <Position of Element n> )",
    "Element",
    "Yields the n-th element of a list.",
    [],
    ""⟩,
   ⟨"Append( <List>, <Object> ) | Append( <Object>, <List> )",
    "Append",
    "Appends an object to a list.",
    [],
    ""⟩,
   ⟨"First( <List> ) | First( <List>, <Number n of Elements> )",
    "First",
    "Returns the first elements of a list.",
    [],
    ""⟩,
   ⟨"Last( <List> ) | Last( <List>, <Number n of Elements> )",
    "Last",
    "Returns the last elements of a list.",
    [],
    ""⟩,
   ⟨"Sort( <List> )",
    "Sort",
    "Sorts a list of numbers, texts or points.",
    [],
    ""⟩,
   ⟨"Max( <List> ) | Max( <Number>, <Number> )",
    "Max",
    "Returns the maximum of a list or of two numbers.",
    [],
    ""⟩,
   ⟨"Min( <List> ) | Min( <Number>, <Number> )",
    "Min",
    "Returns the minimum of a list or of two numbers.",
    [],
    ""⟩,
   ⟨"RandomBetween( <Minimum Integer>, <Maximum Integer> )",
    "RandomBetween",
    "Generates a random integer between two values.",
    [],
    ""⟩]

/-- Scripting, views and solids. -/
def scriptCommands : List Record :=
  [⟨"If( <Condition>, <Then> ) | If( <Condition>, <Then>, <Else> )",
    "If",
    "Yields a copy of the object when the condition holds.",
    [],
    ""⟩,
   ⟨"Execute( <List of Texts> )",
    "Execute",
    "Executes a list of commands given as texts.",
    [⟨"Create two points", "Execute(\x7b\"A=(1,1)\", \"B=(2,2)\"\x7d)"⟩],
    ""⟩,
   ⟨"StartAnimation( ) | StartAnimation( <Boolean> ) | StartAnimation( <Slider or Point>, ... )",
    "StartAnimation",
    "Starts or stops animations of sliders and points.",
    [],
    ""⟩,
   ⟨"UpdateConstruction( ) | UpdateConstruction( <Number of times> )",
    "UpdateConstruction",
    "Recomputes all objects, generating new random numbers.",
    [],
    ""⟩,
   ⟨"ZoomIn( ) | ZoomIn( <Factor> ) | ZoomIn( <Factor>, <Center Point> ) | ZoomIn( <Min x>, <Min y>, <Max x>, <Max y> )",
    "ZoomIn",
    "Zooms the Graphics View in.",
    [⟨"Show the rectangle from (-5,-5) to (5,5)", "ZoomIn(-5, -5, 5, 5)"⟩],
    ""⟩,
   ⟨"ZoomOut( <Factor> ) | ZoomOut( <Factor>, <Center Point> )",
    "ZoomOut",
    "Zooms the Graphics View out.",
    [],
    ""⟩,
   ⟨"CenterView( <Center Point> )",
    "CenterView",
    "Moves the origin of the Graphics View to the given point.",
    [],
    ""⟩,
   ⟨"ShowAxes( ) | ShowAxes( <Boolean> ) | ShowAxes( <View>, <Boolean> )",
    "ShowAxes",
    "Shows or hides the axes.",
    [],
    ""⟩,
   ⟨"ShowGrid( ) | ShowGrid( <Boolean> ) | ShowGrid( <View>, <Boolean> )",
    "ShowGrid",
    "Shows or hides the grid.",
    [],
    ""⟩,
   ⟨"SetPerspective( <Text> )",
    "SetPerspective",
    "Changes the layout of the application views.",
    [⟨"Algebra and Graphics", "SetPerspective(\"AG\")"⟩],
    ""⟩,
   ⟨"SetViewDirection( <Direction> ) | SetViewDirection( )",
    "SetViewDirection",
    "Changes the viewing direction of the 3D Graphics View.",
    [],
    ""⟩,
   ⟨"Plane( <Point>, <Point>, <Point> ) | Plane( <Point>, <Plane> ) | Plane( <Polygon> )",
    "Plane",
    "Creates a plane in 3D.",
    [],
    ""⟩,
   ⟨"Sphere( <Point>, <Radius> ) | Sphere( <Point>, <Point> )",
    "Sphere",
    "Creates a sphere from a center and radius, or a center and a point.",
    [],
    ""⟩,
   ⟨"Cube( <Point>, <Point> ) | Cube( <Point>, <Point>, <Point> )",
    "Cube",
    "Creates a cube.",
    [],
    ""⟩,
   ⟨"Pyramid( <Polygon>, <Point> ) | Pyramid( <Polygon>, <Height> )",
    "Pyramid",
    "Creates a pyramid over a polygon.",
    [],
    ""⟩,
   ⟨"Prism( <Polygon>, <Point> ) | Prism( <Polygon>, <Height Value> )",
    "Prism",
    "Creates a prism over a polygon.",
    [],
    ""⟩,
   ⟨"Cone( <Point>, <Point>, <Radius> ) | Cone( <Circle>, <Height> )",
    "Cone",
    "Creates a cone.",
    [],
    ""⟩,
   ⟨"Cylinder( <Point>, <Point>, <Radius> ) | Cylinder( <Circle>, <Height> )",
    "Cylinder",
    "Creates a cylinder.",
    [],
    ""⟩]

/-- All bundled records. -/
def bundledRecords : List Record :=
  objectCommands ++ geometryCommands ++ analysisCommands ++ scriptCommands

/-- The catalogue of the bundled records. -/
def bundled : Catalogue :=
  ofRecords bundledRecords

end Catalogue

end GeoLint
