import Descent.Text.CodeRange

/-!
# Upper and lower case

`isUpper` and `isLower` are the two case properties of a single character; a title case letter has
neither. `lower` and `upper` are the character-to-character case maps that caseless patterns use: where
the full mapping of a character is longer, they give its first character. Some letters share an upper
case form but not a lower case form (sigma and final sigma, `s` and long `s`); `lowerVariants` lists,
for a lower case letter, the others that a caseless comparison has to accept with it.

All tables are data of the Unicode standard, version 14. Case alternates along many alphabets, so an
entry may cover every second code point of its range.
-/

namespace Descent.Text

def upperRanges : List Stride :=
  [⟨65, 90, 1⟩, ⟨192, 214, 1⟩, ⟨216, 222, 1⟩, ⟨256, 310, 2⟩, ⟨313, 327, 2⟩, ⟨330, 376, 2⟩,
   ⟨377, 381, 2⟩, ⟨385, 386, 1⟩, ⟨388, 388, 1⟩, ⟨390, 391, 1⟩, ⟨393, 395, 1⟩, ⟨398, 401, 1⟩,
   ⟨403, 404, 1⟩, ⟨406, 408, 1⟩, ⟨412, 413, 1⟩, ⟨415, 416, 1⟩, ⟨418, 422, 2⟩, ⟨423, 423, 1⟩,
   ⟨425, 425, 1⟩, ⟨428, 428, 1⟩, ⟨430, 431, 1⟩, ⟨433, 435, 1⟩, ⟨437, 437, 1⟩, ⟨439, 440, 1⟩,
   ⟨444, 444, 1⟩, ⟨452, 452, 1⟩, ⟨455, 455, 1⟩, ⟨458, 458, 1⟩, ⟨461, 475, 2⟩, ⟨478, 494, 2⟩,
   ⟨497, 497, 1⟩, ⟨500, 500, 1⟩, ⟨502, 504, 1⟩, ⟨506, 562, 2⟩, ⟨570, 571, 1⟩, ⟨573, 574, 1⟩,
   ⟨577, 577, 1⟩, ⟨579, 582, 1⟩, ⟨584, 590, 2⟩, ⟨880, 880, 1⟩, ⟨882, 882, 1⟩, ⟨886, 886, 1⟩,
   ⟨895, 895, 1⟩, ⟨902, 902, 1⟩, ⟨904, 906, 1⟩, ⟨908, 908, 1⟩, ⟨910, 911, 1⟩, ⟨913, 929, 1⟩,
   ⟨931, 939, 1⟩, ⟨975, 975, 1⟩, ⟨978, 980, 1⟩, ⟨984, 1006, 2⟩, ⟨1012, 1012, 1⟩, ⟨1015, 1015, 1⟩,
   ⟨1017, 1018, 1⟩, ⟨1021, 1071, 1⟩, ⟨1120, 1152, 2⟩, ⟨1162, 1216, 2⟩, ⟨1217, 1229, 2⟩,
   ⟨1232, 1326, 2⟩, ⟨1329, 1366, 1⟩, ⟨4256, 4293, 1⟩, ⟨4295, 4295, 1⟩, ⟨4301, 4301, 1⟩,
   ⟨5024, 5109, 1⟩, ⟨7312, 7354, 1⟩, ⟨7357, 7359, 1⟩, ⟨7680, 7828, 2⟩, ⟨7838, 7934, 2⟩,
   ⟨7944, 7951, 1⟩, ⟨7960, 7965, 1⟩, ⟨7976, 7983, 1⟩, ⟨7992, 7999, 1⟩, ⟨8008, 8013, 1⟩,
   ⟨8025, 8031, 2⟩, ⟨8040, 8047, 1⟩, ⟨8120, 8123, 1⟩, ⟨8136, 8139, 1⟩, ⟨8152, 8155, 1⟩,
   ⟨8168, 8172, 1⟩, ⟨8184, 8187, 1⟩, ⟨8450, 8450, 1⟩, ⟨8455, 8455, 1⟩, ⟨8459, 8461, 1⟩,
   ⟨8464, 8466, 1⟩, ⟨8469, 8469, 1⟩, ⟨8473, 8477, 1⟩, ⟨8484, 8490, 2⟩, ⟨8491, 8493, 1⟩,
   ⟨8496, 8499, 1⟩, ⟨8510, 8511, 1⟩, ⟨8517, 8517, 1⟩, ⟨8544, 8559, 1⟩, ⟨8579, 8579, 1⟩,
   ⟨9398, 9423, 1⟩, ⟨11264, 11311, 1⟩, ⟨11360, 11360, 1⟩, ⟨11362, 11364, 1⟩, ⟨11367, 11373, 2⟩,
   ⟨11374, 11376, 1⟩, ⟨11378, 11378, 1⟩, ⟨11381, 11381, 1⟩, ⟨11390, 11392, 1⟩, ⟨11394, 11490, 2⟩,
   ⟨11499, 11499, 1⟩, ⟨11501, 11501, 1⟩, ⟨11506, 11506, 1⟩, ⟨42560, 42604, 2⟩, ⟨42624, 42650, 2⟩,
   ⟨42786, 42798, 2⟩, ⟨42802, 42862, 2⟩, ⟨42873, 42877, 2⟩, ⟨42878, 42886, 2⟩, ⟨42891, 42891, 1⟩,
   ⟨42893, 42893, 1⟩, ⟨42896, 42896, 1⟩, ⟨42898, 42898, 1⟩, ⟨42902, 42922, 2⟩, ⟨42923, 42926, 1⟩,
   ⟨42928, 42932, 1⟩, ⟨42934, 42948, 2⟩, ⟨42949, 42951, 1⟩, ⟨42953, 42953, 1⟩, ⟨42960, 42960, 1⟩,
   ⟨42966, 42966, 1⟩, ⟨42968, 42968, 1⟩, ⟨42997, 42997, 1⟩, ⟨65313, 65338, 1⟩, ⟨66560, 66599, 1⟩,
   ⟨66736, 66771, 1⟩, ⟨66928, 66938, 1⟩, ⟨66940, 66954, 1⟩, ⟨66956, 66962, 1⟩, ⟨66964, 66965, 1⟩,
   ⟨68736, 68786, 1⟩, ⟨71840, 71871, 1⟩, ⟨93760, 93791, 1⟩, ⟨119808, 119833, 1⟩,
   ⟨119860, 119885, 1⟩, ⟨119912, 119937, 1⟩, ⟨119964, 119964, 1⟩, ⟨119966, 119967, 1⟩,
   ⟨119970, 119970, 1⟩, ⟨119973, 119974, 1⟩, ⟨119977, 119980, 1⟩, ⟨119982, 119989, 1⟩,
   ⟨120016, 120041, 1⟩, ⟨120068, 120069, 1⟩, ⟨120071, 120074, 1⟩, ⟨120077, 120084, 1⟩,
   ⟨120086, 120092, 1⟩, ⟨120120, 120121, 1⟩, ⟨120123, 120126, 1⟩, ⟨120128, 120132, 1⟩,
   ⟨120134, 120134, 1⟩, ⟨120138, 120144, 1⟩, ⟨120172, 120197, 1⟩, ⟨120224, 120249, 1⟩,
   ⟨120276, 120301, 1⟩, ⟨120328, 120353, 1⟩, ⟨120380, 120405, 1⟩, ⟨120432, 120457, 1⟩,
   ⟨120488, 120512, 1⟩, ⟨120546, 120570, 1⟩, ⟨120604, 120628, 1⟩, ⟨120662, 120686, 1⟩,
   ⟨120720, 120744, 1⟩, ⟨120778, 120778, 1⟩, ⟨125184, 125217, 1⟩, ⟨127280, 127305, 1⟩,
   ⟨127312, 127337, 1⟩, ⟨127344, 127369, 1⟩]

def lowerRanges : List Stride :=
  [⟨97, 122, 1⟩, ⟨170, 170, 1⟩, ⟨181, 181, 1⟩, ⟨186, 186, 1⟩, ⟨223, 246, 1⟩, ⟨248, 255, 1⟩,
   ⟨257, 311, 2⟩, ⟨312, 328, 2⟩, ⟨329, 375, 2⟩, ⟨378, 382, 2⟩, ⟨383, 384, 1⟩, ⟨387, 387, 1⟩,
   ⟨389, 389, 1⟩, ⟨392, 392, 1⟩, ⟨396, 397, 1⟩, ⟨402, 402, 1⟩, ⟨405, 405, 1⟩, ⟨409, 411, 1⟩,
   ⟨414, 414, 1⟩, ⟨417, 421, 2⟩, ⟨424, 424, 1⟩, ⟨426, 427, 1⟩, ⟨429, 429, 1⟩, ⟨432, 432, 1⟩,
   ⟨436, 436, 1⟩, ⟨438, 438, 1⟩, ⟨441, 442, 1⟩, ⟨445, 447, 1⟩, ⟨454, 454, 1⟩, ⟨457, 457, 1⟩,
   ⟨460, 476, 2⟩, ⟨477, 495, 2⟩, ⟨496, 496, 1⟩, ⟨499, 499, 1⟩, ⟨501, 501, 1⟩, ⟨505, 563, 2⟩,
   ⟨564, 569, 1⟩, ⟨572, 572, 1⟩, ⟨575, 576, 1⟩, ⟨578, 578, 1⟩, ⟨583, 591, 2⟩, ⟨592, 659, 1⟩,
   ⟨661, 696, 1⟩, ⟨704, 705, 1⟩, ⟨736, 740, 1⟩, ⟨837, 837, 1⟩, ⟨881, 881, 1⟩, ⟨883, 883, 1⟩,
   ⟨887, 887, 1⟩, ⟨890, 893, 1⟩, ⟨912, 912, 1⟩, ⟨940, 974, 1⟩, ⟨976, 977, 1⟩, ⟨981, 983, 1⟩,
   ⟨985, 1007, 2⟩, ⟨1008, 1011, 1⟩, ⟨1013, 1013, 1⟩, ⟨1016, 1016, 1⟩, ⟨1019, 1020, 1⟩,
   ⟨1072, 1119, 1⟩, ⟨1121, 1153, 2⟩, ⟨1163, 1215, 2⟩, ⟨1218, 1230, 2⟩, ⟨1231, 1327, 2⟩,
   ⟨1376, 1416, 1⟩, ⟨4304, 4346, 1⟩, ⟨4349, 4351, 1⟩, ⟨5112, 5117, 1⟩, ⟨7296, 7304, 1⟩,
   ⟨7424, 7615, 1⟩, ⟨7681, 7829, 2⟩, ⟨7830, 7837, 1⟩, ⟨7839, 7935, 2⟩, ⟨7936, 7943, 1⟩,
   ⟨7952, 7957, 1⟩, ⟨7968, 7975, 1⟩, ⟨7984, 7991, 1⟩, ⟨8000, 8005, 1⟩, ⟨8016, 8023, 1⟩,
   ⟨8032, 8039, 1⟩, ⟨8048, 8061, 1⟩, ⟨8064, 8071, 1⟩, ⟨8080, 8087, 1⟩, ⟨8096, 8103, 1⟩,
   ⟨8112, 8116, 1⟩, ⟨8118, 8119, 1⟩, ⟨8126, 8126, 1⟩, ⟨8130, 8132, 1⟩, ⟨8134, 8135, 1⟩,
   ⟨8144, 8147, 1⟩, ⟨8150, 8151, 1⟩, ⟨8160, 8167, 1⟩, ⟨8178, 8180, 1⟩, ⟨8182, 8183, 1⟩,
   ⟨8305, 8305, 1⟩, ⟨8319, 8319, 1⟩, ⟨8336, 8348, 1⟩, ⟨8458, 8458, 1⟩, ⟨8462, 8463, 1⟩,
   ⟨8467, 8467, 1⟩, ⟨8495, 8495, 1⟩, ⟨8500, 8500, 1⟩, ⟨8505, 8505, 1⟩, ⟨8508, 8509, 1⟩,
   ⟨8518, 8521, 1⟩, ⟨8526, 8526, 1⟩, ⟨8560, 8575, 1⟩, ⟨8580, 8580, 1⟩, ⟨9424, 9449, 1⟩,
   ⟨11312, 11359, 1⟩, ⟨11361, 11361, 1⟩, ⟨11365, 11366, 1⟩, ⟨11368, 11372, 2⟩, ⟨11377, 11377, 1⟩,
   ⟨11379, 11380, 1⟩, ⟨11382, 11389, 1⟩, ⟨11393, 11491, 2⟩, ⟨11492, 11492, 1⟩, ⟨11500, 11500, 1⟩,
   ⟨11502, 11502, 1⟩, ⟨11507, 11507, 1⟩, ⟨11520, 11557, 1⟩, ⟨11559, 11559, 1⟩, ⟨11565, 11565, 1⟩,
   ⟨42561, 42605, 2⟩, ⟨42625, 42651, 2⟩, ⟨42652, 42653, 1⟩, ⟨42787, 42799, 2⟩, ⟨42800, 42801, 1⟩,
   ⟨42803, 42863, 2⟩, ⟨42864, 42872, 1⟩, ⟨42874, 42874, 1⟩, ⟨42876, 42876, 1⟩, ⟨42879, 42887, 2⟩,
   ⟨42892, 42892, 1⟩, ⟨42894, 42894, 1⟩, ⟨42897, 42897, 1⟩, ⟨42899, 42901, 1⟩, ⟨42903, 42921, 2⟩,
   ⟨42927, 42927, 1⟩, ⟨42933, 42947, 2⟩, ⟨42952, 42952, 1⟩, ⟨42954, 42954, 1⟩, ⟨42961, 42969, 2⟩,
   ⟨42998, 42998, 1⟩, ⟨43000, 43002, 1⟩, ⟨43824, 43866, 1⟩, ⟨43868, 43880, 1⟩, ⟨43888, 43967, 1⟩,
   ⟨64256, 64262, 1⟩, ⟨64275, 64279, 1⟩, ⟨65345, 65370, 1⟩, ⟨66600, 66639, 1⟩, ⟨66776, 66811, 1⟩,
   ⟨66967, 66977, 1⟩, ⟨66979, 66993, 1⟩, ⟨66995, 67001, 1⟩, ⟨67003, 67004, 1⟩, ⟨67456, 67456, 1⟩,
   ⟨67459, 67461, 1⟩, ⟨67463, 67504, 1⟩, ⟨67506, 67514, 1⟩, ⟨68800, 68850, 1⟩, ⟨71872, 71903, 1⟩,
   ⟨93792, 93823, 1⟩, ⟨119834, 119859, 1⟩, ⟨119886, 119892, 1⟩, ⟨119894, 119911, 1⟩,
   ⟨119938, 119963, 1⟩, ⟨119990, 119993, 1⟩, ⟨119995, 119995, 1⟩, ⟨119997, 120003, 1⟩,
   ⟨120005, 120015, 1⟩, ⟨120042, 120067, 1⟩, ⟨120094, 120119, 1⟩, ⟨120146, 120171, 1⟩,
   ⟨120198, 120223, 1⟩, ⟨120250, 120275, 1⟩, ⟨120302, 120327, 1⟩, ⟨120354, 120379, 1⟩,
   ⟨120406, 120431, 1⟩, ⟨120458, 120485, 1⟩, ⟨120514, 120538, 1⟩, ⟨120540, 120545, 1⟩,
   ⟨120572, 120596, 1⟩, ⟨120598, 120603, 1⟩, ⟨120630, 120654, 1⟩, ⟨120656, 120661, 1⟩,
   ⟨120688, 120712, 1⟩, ⟨120714, 120719, 1⟩, ⟨120746, 120770, 1⟩, ⟨120772, 120777, 1⟩,
   ⟨120779, 120779, 1⟩, ⟨122624, 122633, 1⟩, ⟨122635, 122654, 1⟩, ⟨125218, 125251, 1⟩]

/-- How far each character is moved by the map to lower case. -/
def lowerShifts : List Shift :=
  [⟨32, 65, 90, 1⟩, ⟨32, 192, 214, 1⟩, ⟨32, 216, 222, 1⟩, ⟨1, 256, 302, 2⟩, ⟨-199, 304, 304, 1⟩,
   ⟨1, 306, 310, 2⟩, ⟨1, 313, 327, 2⟩, ⟨1, 330, 374, 2⟩, ⟨-121, 376, 376, 1⟩, ⟨1, 377, 381, 2⟩,
   ⟨210, 385, 385, 1⟩, ⟨1, 386, 388, 2⟩, ⟨206, 390, 390, 1⟩, ⟨1, 391, 391, 1⟩, ⟨205, 393, 394, 1⟩,
   ⟨1, 395, 395, 1⟩, ⟨79, 398, 398, 1⟩, ⟨202, 399, 399, 1⟩, ⟨203, 400, 400, 1⟩, ⟨1, 401, 401, 1⟩,
   ⟨205, 403, 403, 1⟩, ⟨207, 404, 404, 1⟩, ⟨211, 406, 406, 1⟩, ⟨209, 407, 407, 1⟩,
   ⟨1, 408, 408, 1⟩, ⟨211, 412, 412, 1⟩, ⟨213, 413, 413, 1⟩, ⟨214, 415, 415, 1⟩, ⟨1, 416, 420, 2⟩,
   ⟨218, 422, 422, 1⟩, ⟨1, 423, 423, 1⟩, ⟨218, 425, 425, 1⟩, ⟨1, 428, 428, 1⟩, ⟨218, 430, 430, 1⟩,
   ⟨1, 431, 431, 1⟩, ⟨217, 433, 434, 1⟩, ⟨1, 435, 437, 2⟩, ⟨219, 439, 439, 1⟩, ⟨1, 440, 440, 1⟩,
   ⟨1, 444, 444, 1⟩, ⟨2, 452, 452, 1⟩, ⟨1, 453, 453, 1⟩, ⟨2, 455, 455, 1⟩, ⟨1, 456, 456, 1⟩,
   ⟨2, 458, 458, 1⟩, ⟨1, 459, 475, 2⟩, ⟨1, 478, 494, 2⟩, ⟨2, 497, 497, 1⟩, ⟨1, 498, 500, 2⟩,
   ⟨-97, 502, 502, 1⟩, ⟨-56, 503, 503, 1⟩, ⟨1, 504, 542, 2⟩, ⟨-130, 544, 544, 1⟩, ⟨1, 546, 562, 2⟩,
   ⟨10795, 570, 570, 1⟩, ⟨1, 571, 571, 1⟩, ⟨-163, 573, 573, 1⟩, ⟨10792, 574, 574, 1⟩,
   ⟨1, 577, 577, 1⟩, ⟨-195, 579, 579, 1⟩, ⟨69, 580, 580, 1⟩, ⟨71, 581, 581, 1⟩, ⟨1, 582, 590, 2⟩,
   ⟨1, 880, 882, 2⟩, ⟨1, 886, 886, 1⟩, ⟨116, 895, 895, 1⟩, ⟨38, 902, 902, 1⟩, ⟨37, 904, 906, 1⟩,
   ⟨64, 908, 908, 1⟩, ⟨63, 910, 911, 1⟩, ⟨32, 913, 929, 1⟩, ⟨32, 931, 939, 1⟩, ⟨8, 975, 975, 1⟩,
   ⟨1, 984, 1006, 2⟩, ⟨-60, 1012, 1012, 1⟩, ⟨1, 1015, 1015, 1⟩, ⟨-7, 1017, 1017, 1⟩,
   ⟨1, 1018, 1018, 1⟩, ⟨-130, 1021, 1023, 1⟩, ⟨80, 1024, 1039, 1⟩, ⟨32, 1040, 1071, 1⟩,
   ⟨1, 1120, 1152, 2⟩, ⟨1, 1162, 1214, 2⟩, ⟨15, 1216, 1216, 1⟩, ⟨1, 1217, 1229, 2⟩,
   ⟨1, 1232, 1326, 2⟩, ⟨48, 1329, 1366, 1⟩, ⟨7264, 4256, 4293, 1⟩, ⟨7264, 4295, 4295, 1⟩,
   ⟨7264, 4301, 4301, 1⟩, ⟨38864, 5024, 5103, 1⟩, ⟨8, 5104, 5109, 1⟩, ⟨-3008, 7312, 7354, 1⟩,
   ⟨-3008, 7357, 7359, 1⟩, ⟨1, 7680, 7828, 2⟩, ⟨-7615, 7838, 7838, 1⟩, ⟨1, 7840, 7934, 2⟩,
   ⟨-8, 7944, 7951, 1⟩, ⟨-8, 7960, 7965, 1⟩, ⟨-8, 7976, 7983, 1⟩, ⟨-8, 7992, 7999, 1⟩,
   ⟨-8, 8008, 8013, 1⟩, ⟨-8, 8025, 8031, 2⟩, ⟨-8, 8040, 8047, 1⟩, ⟨-8, 8072, 8079, 1⟩,
   ⟨-8, 8088, 8095, 1⟩, ⟨-8, 8104, 8111, 1⟩, ⟨-8, 8120, 8121, 1⟩, ⟨-74, 8122, 8123, 1⟩,
   ⟨-9, 8124, 8124, 1⟩, ⟨-86, 8136, 8139, 1⟩, ⟨-9, 8140, 8140, 1⟩, ⟨-8, 8152, 8153, 1⟩,
   ⟨-100, 8154, 8155, 1⟩, ⟨-8, 8168, 8169, 1⟩, ⟨-112, 8170, 8171, 1⟩, ⟨-7, 8172, 8172, 1⟩,
   ⟨-128, 8184, 8185, 1⟩, ⟨-126, 8186, 8187, 1⟩, ⟨-9, 8188, 8188, 1⟩, ⟨-7517, 8486, 8486, 1⟩,
   ⟨-8383, 8490, 8490, 1⟩, ⟨-8262, 8491, 8491, 1⟩, ⟨28, 8498, 8498, 1⟩, ⟨16, 8544, 8559, 1⟩,
   ⟨1, 8579, 8579, 1⟩, ⟨26, 9398, 9423, 1⟩, ⟨48, 11264, 11311, 1⟩, ⟨1, 11360, 11360, 1⟩,
   ⟨-10743, 11362, 11362, 1⟩, ⟨-3814, 11363, 11363, 1⟩, ⟨-10727, 11364, 11364, 1⟩,
   ⟨1, 11367, 11371, 2⟩, ⟨-10780, 11373, 11373, 1⟩, ⟨-10749, 11374, 11374, 1⟩,
   ⟨-10783, 11375, 11375, 1⟩, ⟨-10782, 11376, 11376, 1⟩, ⟨1, 11378, 11378, 1⟩,
   ⟨1, 11381, 11381, 1⟩, ⟨-10815, 11390, 11391, 1⟩, ⟨1, 11392, 11490, 2⟩, ⟨1, 11499, 11501, 2⟩,
   ⟨1, 11506, 11506, 1⟩, ⟨1, 42560, 42604, 2⟩, ⟨1, 42624, 42650, 2⟩, ⟨1, 42786, 42798, 2⟩,
   ⟨1, 42802, 42862, 2⟩, ⟨1, 42873, 42875, 2⟩, ⟨-35332, 42877, 42877, 1⟩, ⟨1, 42878, 42886, 2⟩,
   ⟨1, 42891, 42891, 1⟩, ⟨-42280, 42893, 42893, 1⟩, ⟨1, 42896, 42898, 2⟩, ⟨1, 42902, 42920, 2⟩,
   ⟨-42308, 42922, 42922, 1⟩, ⟨-42319, 42923, 42923, 1⟩, ⟨-42315, 42924, 42924, 1⟩,
   ⟨-42305, 42925, 42925, 1⟩, ⟨-42308, 42926, 42926, 1⟩, ⟨-42258, 42928, 42928, 1⟩,
   ⟨-42282, 42929, 42929, 1⟩, ⟨-42261, 42930, 42930, 1⟩, ⟨928, 42931, 42931, 1⟩,
   ⟨1, 42932, 42946, 2⟩, ⟨-48, 42948, 42948, 1⟩, ⟨-42307, 42949, 42949, 1⟩,
   ⟨-35384, 42950, 42950, 1⟩, ⟨1, 42951, 42953, 2⟩, ⟨1, 42960, 42960, 1⟩, ⟨1, 42966, 42968, 2⟩,
   ⟨1, 42997, 42997, 1⟩, ⟨32, 65313, 65338, 1⟩, ⟨40, 66560, 66599, 1⟩, ⟨40, 66736, 66771, 1⟩,
   ⟨39, 66928, 66938, 1⟩, ⟨39, 66940, 66954, 1⟩, ⟨39, 66956, 66962, 1⟩, ⟨39, 66964, 66965, 1⟩,
   ⟨64, 68736, 68786, 1⟩, ⟨32, 71840, 71871, 1⟩, ⟨32, 93760, 93791, 1⟩, ⟨34, 125184, 125217, 1⟩]

/-- How far each character is moved by the map to upper case. -/
def upperShifts : List Shift :=
  [⟨-32, 97, 122, 1⟩, ⟨743, 181, 181, 1⟩, ⟨-140, 223, 223, 1⟩, ⟨-32, 224, 246, 1⟩,
   ⟨-32, 248, 254, 1⟩, ⟨121, 255, 255, 1⟩, ⟨-1, 257, 303, 2⟩, ⟨-232, 305, 305, 1⟩,
   ⟨-1, 307, 311, 2⟩, ⟨-1, 314, 328, 2⟩, ⟨371, 329, 329, 1⟩, ⟨-1, 331, 375, 2⟩, ⟨-1, 378, 382, 2⟩,
   ⟨-300, 383, 383, 1⟩, ⟨195, 384, 384, 1⟩, ⟨-1, 387, 389, 2⟩, ⟨-1, 392, 392, 1⟩,
   ⟨-1, 396, 396, 1⟩, ⟨-1, 402, 402, 1⟩, ⟨97, 405, 405, 1⟩, ⟨-1, 409, 409, 1⟩, ⟨163, 410, 410, 1⟩,
   ⟨130, 414, 414, 1⟩, ⟨-1, 417, 421, 2⟩, ⟨-1, 424, 424, 1⟩, ⟨-1, 429, 429, 1⟩, ⟨-1, 432, 432, 1⟩,
   ⟨-1, 436, 438, 2⟩, ⟨-1, 441, 441, 1⟩, ⟨-1, 445, 445, 1⟩, ⟨56, 447, 447, 1⟩, ⟨-1, 453, 453, 1⟩,
   ⟨-2, 454, 454, 1⟩, ⟨-1, 456, 456, 1⟩, ⟨-2, 457, 457, 1⟩, ⟨-1, 459, 459, 1⟩, ⟨-2, 460, 460, 1⟩,
   ⟨-1, 462, 476, 2⟩, ⟨-79, 477, 477, 1⟩, ⟨-1, 479, 495, 2⟩, ⟨-422, 496, 496, 1⟩,
   ⟨-1, 498, 498, 1⟩, ⟨-2, 499, 499, 1⟩, ⟨-1, 501, 501, 1⟩, ⟨-1, 505, 543, 2⟩, ⟨-1, 547, 563, 2⟩,
   ⟨-1, 572, 572, 1⟩, ⟨10815, 575, 576, 1⟩, ⟨-1, 578, 578, 1⟩, ⟨-1, 583, 591, 2⟩,
   ⟨10783, 592, 592, 1⟩, ⟨10780, 593, 593, 1⟩, ⟨10782, 594, 594, 1⟩, ⟨-210, 595, 595, 1⟩,
   ⟨-206, 596, 596, 1⟩, ⟨-205, 598, 599, 1⟩, ⟨-202, 601, 601, 1⟩, ⟨-203, 603, 603, 1⟩,
   ⟨42319, 604, 604, 1⟩, ⟨-205, 608, 608, 1⟩, ⟨42315, 609, 609, 1⟩, ⟨-207, 611, 611, 1⟩,
   ⟨42280, 613, 613, 1⟩, ⟨42308, 614, 614, 1⟩, ⟨-209, 616, 616, 1⟩, ⟨-211, 617, 617, 1⟩,
   ⟨42308, 618, 618, 1⟩, ⟨10743, 619, 619, 1⟩, ⟨42305, 620, 620, 1⟩, ⟨-211, 623, 623, 1⟩,
   ⟨10749, 625, 625, 1⟩, ⟨-213, 626, 626, 1⟩, ⟨-214, 629, 629, 1⟩, ⟨10727, 637, 637, 1⟩,
   ⟨-218, 640, 640, 1⟩, ⟨42307, 642, 642, 1⟩, ⟨-218, 643, 643, 1⟩, ⟨42282, 647, 647, 1⟩,
   ⟨-218, 648, 648, 1⟩, ⟨-69, 649, 649, 1⟩, ⟨-217, 650, 651, 1⟩, ⟨-71, 652, 652, 1⟩,
   ⟨-219, 658, 658, 1⟩, ⟨42261, 669, 669, 1⟩, ⟨42258, 670, 670, 1⟩, ⟨84, 837, 837, 1⟩,
   ⟨-1, 881, 883, 2⟩, ⟨-1, 887, 887, 1⟩, ⟨130, 891, 893, 1⟩, ⟨9, 912, 912, 1⟩, ⟨-38, 940, 940, 1⟩,
   ⟨-37, 941, 943, 1⟩, ⟨-11, 944, 944, 1⟩, ⟨-32, 945, 961, 1⟩, ⟨-31, 962, 962, 1⟩,
   ⟨-32, 963, 971, 1⟩, ⟨-64, 972, 972, 1⟩, ⟨-63, 973, 974, 1⟩, ⟨-62, 976, 976, 1⟩,
   ⟨-57, 977, 977, 1⟩, ⟨-47, 981, 981, 1⟩, ⟨-54, 982, 982, 1⟩, ⟨-8, 983, 983, 1⟩,
   ⟨-1, 985, 1007, 2⟩, ⟨-86, 1008, 1008, 1⟩, ⟨-80, 1009, 1009, 1⟩, ⟨7, 1010, 1010, 1⟩,
   ⟨-116, 1011, 1011, 1⟩, ⟨-96, 1013, 1013, 1⟩, ⟨-1, 1016, 1016, 1⟩, ⟨-1, 1019, 1019, 1⟩,
   ⟨-32, 1072, 1103, 1⟩, ⟨-80, 1104, 1119, 1⟩, ⟨-1, 1121, 1153, 2⟩, ⟨-1, 1163, 1215, 2⟩,
   ⟨-1, 1218, 1230, 2⟩, ⟨-15, 1231, 1231, 1⟩, ⟨-1, 1233, 1327, 2⟩, ⟨-48, 1377, 1414, 1⟩,
   ⟨-82, 1415, 1415, 1⟩, ⟨3008, 4304, 4346, 1⟩, ⟨3008, 4349, 4351, 1⟩, ⟨-8, 5112, 5117, 1⟩,
   ⟨-6254, 7296, 7296, 1⟩, ⟨-6253, 7297, 7297, 1⟩, ⟨-6244, 7298, 7298, 1⟩, ⟨-6242, 7299, 7300, 1⟩,
   ⟨-6243, 7301, 7301, 1⟩, ⟨-6236, 7302, 7302, 1⟩, ⟨-6181, 7303, 7303, 1⟩, ⟨35266, 7304, 7304, 1⟩,
   ⟨35332, 7545, 7545, 1⟩, ⟨3814, 7549, 7549, 1⟩, ⟨35384, 7566, 7566, 1⟩, ⟨-1, 7681, 7829, 2⟩,
   ⟨-7758, 7830, 7830, 1⟩, ⟨-7747, 7831, 7831, 1⟩, ⟨-7745, 7832, 7832, 1⟩, ⟨-7744, 7833, 7833, 1⟩,
   ⟨-7769, 7834, 7834, 1⟩, ⟨-59, 7835, 7835, 1⟩, ⟨-1, 7841, 7935, 2⟩, ⟨8, 7936, 7943, 1⟩,
   ⟨8, 7952, 7957, 1⟩, ⟨8, 7968, 7975, 1⟩, ⟨8, 7984, 7991, 1⟩, ⟨8, 8000, 8005, 1⟩,
   ⟨-7083, 8016, 8016, 1⟩, ⟨8, 8017, 8017, 1⟩, ⟨-7085, 8018, 8018, 1⟩, ⟨8, 8019, 8019, 1⟩,
   ⟨-7087, 8020, 8020, 1⟩, ⟨8, 8021, 8021, 1⟩, ⟨-7089, 8022, 8022, 1⟩, ⟨8, 8023, 8023, 1⟩,
   ⟨8, 8032, 8039, 1⟩, ⟨74, 8048, 8049, 1⟩, ⟨86, 8050, 8053, 1⟩, ⟨100, 8054, 8055, 1⟩,
   ⟨128, 8056, 8057, 1⟩, ⟨112, 8058, 8059, 1⟩, ⟨126, 8060, 8061, 1⟩, ⟨-120, 8064, 8071, 1⟩,
   ⟨-128, 8072, 8079, 1⟩, ⟨-104, 8080, 8087, 1⟩, ⟨-112, 8088, 8095, 1⟩, ⟨-56, 8096, 8103, 1⟩,
   ⟨-64, 8104, 8111, 1⟩, ⟨8, 8112, 8114, 1⟩, ⟨-7202, 8115, 8115, 1⟩, ⟨-7214, 8116, 8116, 1⟩,
   ⟨-7205, 8118, 8118, 1⟩, ⟨-7206, 8119, 8119, 1⟩, ⟨-7211, 8124, 8124, 1⟩, ⟨-7205, 8126, 8126, 1⟩,
   ⟨8, 8130, 8130, 1⟩, ⟨-7212, 8131, 8131, 1⟩, ⟨-7227, 8132, 8132, 1⟩, ⟨-7215, 8134, 8134, 1⟩,
   ⟨-7216, 8135, 8135, 1⟩, ⟨-7221, 8140, 8140, 1⟩, ⟨8, 8144, 8145, 1⟩, ⟨-7225, 8146, 8146, 1⟩,
   ⟨-7226, 8147, 8147, 1⟩, ⟨-7229, 8150, 8150, 1⟩, ⟨-7230, 8151, 8151, 1⟩, ⟨8, 8160, 8161, 1⟩,
   ⟨-7229, 8162, 8162, 1⟩, ⟨-7230, 8163, 8163, 1⟩, ⟨-7235, 8164, 8164, 1⟩, ⟨7, 8165, 8165, 1⟩,
   ⟨-7233, 8166, 8166, 1⟩, ⟨-7234, 8167, 8167, 1⟩, ⟨8, 8178, 8178, 1⟩, ⟨-7242, 8179, 8179, 1⟩,
   ⟨-7269, 8180, 8180, 1⟩, ⟨-7245, 8182, 8182, 1⟩, ⟨-7246, 8183, 8183, 1⟩, ⟨-7251, 8188, 8188, 1⟩,
   ⟨-28, 8526, 8526, 1⟩, ⟨-16, 8560, 8575, 1⟩, ⟨-1, 8580, 8580, 1⟩, ⟨-26, 9424, 9449, 1⟩,
   ⟨-48, 11312, 11359, 1⟩, ⟨-1, 11361, 11361, 1⟩, ⟨-10795, 11365, 11365, 1⟩,
   ⟨-10792, 11366, 11366, 1⟩, ⟨-1, 11368, 11372, 2⟩, ⟨-1, 11379, 11379, 1⟩, ⟨-1, 11382, 11382, 1⟩,
   ⟨-1, 11393, 11491, 2⟩, ⟨-1, 11500, 11502, 2⟩, ⟨-1, 11507, 11507, 1⟩, ⟨-7264, 11520, 11557, 1⟩,
   ⟨-7264, 11559, 11559, 1⟩, ⟨-7264, 11565, 11565, 1⟩, ⟨-1, 42561, 42605, 2⟩,
   ⟨-1, 42625, 42651, 2⟩, ⟨-1, 42787, 42799, 2⟩, ⟨-1, 42803, 42863, 2⟩, ⟨-1, 42874, 42876, 2⟩,
   ⟨-1, 42879, 42887, 2⟩, ⟨-1, 42892, 42892, 1⟩, ⟨-1, 42897, 42899, 2⟩, ⟨48, 42900, 42900, 1⟩,
   ⟨-1, 42903, 42921, 2⟩, ⟨-1, 42933, 42947, 2⟩, ⟨-1, 42952, 42954, 2⟩, ⟨-1, 42961, 42961, 1⟩,
   ⟨-1, 42967, 42969, 2⟩, ⟨-1, 42998, 42998, 1⟩, ⟨-928, 43859, 43859, 1⟩,
   ⟨-38864, 43888, 43967, 1⟩, ⟨-64186, 64256, 64256, 1⟩, ⟨-64187, 64257, 64257, 1⟩,
   ⟨-64188, 64258, 64258, 1⟩, ⟨-64189, 64259, 64259, 1⟩, ⟨-64190, 64260, 64260, 1⟩,
   ⟨-64178, 64261, 64261, 1⟩, ⟨-64179, 64262, 64262, 1⟩, ⟨-62927, 64275, 64275, 1⟩,
   ⟨-62928, 64276, 64276, 1⟩, ⟨-62929, 64277, 64277, 1⟩, ⟨-62920, 64278, 64278, 1⟩,
   ⟨-62931, 64279, 64279, 1⟩, ⟨-32, 65345, 65370, 1⟩, ⟨-40, 66600, 66639, 1⟩,
   ⟨-40, 66776, 66811, 1⟩, ⟨-39, 66967, 66977, 1⟩, ⟨-39, 66979, 66993, 1⟩, ⟨-39, 66995, 67001, 1⟩,
   ⟨-39, 67003, 67004, 1⟩, ⟨-64, 68800, 68850, 1⟩, ⟨-32, 71872, 71903, 1⟩, ⟨-32, 93792, 93823, 1⟩,
   ⟨-34, 125218, 125251, 1⟩]

/-- Lower case letters that caseless comparison takes for one another although neither is the lower
case of the other. -/
def lowerVariantTable : List (Nat × List Nat) :=
  [(105, [305]), (115, [383]), (181, [956]), (305, [105]), (383, [115]), (837, [953, 8126]),
   (912, [8147]), (944, [8163]), (946, [976]), (949, [1013]), (952, [977]), (953, [837, 8126]),
   (954, [1008]), (956, [181]), (960, [982]), (961, [1009]), (962, [963]), (963, [962]),
   (966, [981]), (976, [946]), (977, [952]), (981, [966]), (982, [960]), (1008, [954]),
   (1009, [961]), (1013, [949]), (1074, [7296]), (1076, [7297]), (1086, [7298]), (1089, [7299]),
   (1090, [7300, 7301]), (1098, [7302]), (1123, [7303]), (7296, [1074]), (7297, [1076]),
   (7298, [1086]), (7299, [1089]), (7300, [1090, 7301]), (7301, [1090, 7300]), (7302, [1098]),
   (7303, [1123]), (7304, [42571]), (7777, [7835]), (7835, [7777]), (8126, [837, 953]),
   (8147, [912]), (8163, [944]), (42571, [7304]), (64261, [64262]), (64262, [64261])]

def isUpper (code : Nat) : Bool := inStrides upperRanges code

def isLower (code : Nat) : Bool := inStrides lowerRanges code

/-- The lower case form of one character, itself if it has none. -/
def lower (code : Nat) : Nat := shift lowerShifts code

/-- The upper case form of one character, itself if it has none. -/
def upper (code : Nat) : Nat := shift upperShifts code

/-- A character that differs from its form in the other case. -/
def changesCase (code : Nat) : Bool := lower code != code || upper code != code

/-- Whether some character from `low` to `high` differs from its form in the other case. -/
def someChangesCase (low high : Nat) : Bool :=
  lowerShifts.any (·.moved.meets low high) || upperShifts.any (·.moved.meets low high)

/-- The further lower case letters that count as the same letter as `code`. -/
def lowerVariants (code : Nat) : List Nat :=
  ((lowerVariantTable.find? (·.1 == code)).map (·.2)).getD []

end Descent.Text
